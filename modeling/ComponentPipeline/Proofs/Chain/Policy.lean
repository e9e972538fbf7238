import ComponentPipeline.Registry
import ComponentPipeline.Proofs.Options.Settings
import ComponentPipeline.Proofs.Table.LastPairs

/-!
# The chain policy

Which stages a block runs through is settled by the options of a run and by the default
transformers that it knows.  The language of the block decides on the first stage and on
whether there is a chain at all.  The stages behind it are decided by the settings of
`postcss` and `globalRule` alone, so that no setting of another language touches them.
-/

namespace ComponentPipeline

/-- What the registry of a run is made from. -/
structure RegistrySetup where
  /-- How the built-in post-processor compiles stylesheets. -/
  compile : StyleCompiler
  /-- The options of the run. -/
  options : Options
  /-- The options have their tables in order. -/
  inOrder : options.InKeyOrder
  /-- The default transformers that are registered, in their order. -/
  added : List (Text × Transformer)

namespace RegistrySetup

/-- The registry of the options with all default transformers registered. -/
def registry (setup : RegistrySetup) : Registry :=
  setup.added.foldl
    (fun registry (language, transformer) => registry.withDefault language transformer)
    (.ofOptions setup.compile setup.options)

/-- A transformer is the default one of a language: the one registered last, the
built-in ones coming first. -/
def IsDefault (setup : RegistrySetup) (language : Text) (transformer : Transformer) : Prop :=
  Table.IsLast (Registry.builtIn setup.compile ++ setup.added) language transformer

/-! ## The policy -/

/-- The stage under a key: the custom transformer if one is set, and else the default
one with the options that are set. -/
inductive IsStage (setup : RegistrySetup) (key : Text) : Stage → Prop
  | custom {transformer}
      (setting : setup.options.setting? key = some (.custom transformer)) :
      IsStage setup key ⟨key, transformer, []⟩
  | configured {options transformer}
      (setting : setup.options.setting? key = some (.options options))
      (isDefault : setup.IsDefault key transformer) :
      IsStage setup key ⟨key, transformer, options⟩
  | enabled {transformer}
      (setting : setup.options.setting? key = some .enabled)
      (isDefault : setup.IsDefault key transformer) :
      IsStage setup key ⟨key, transformer, []⟩
  | unset {transformer}
      (setting : setup.options.setting? key = none)
      (isDefault : setup.IsDefault key transformer) :
      IsStage setup key ⟨key, transformer, []⟩

/-- A language has a transformer: a custom one or a default one. -/
def HasTransformer (setup : RegistrySetup) (language : Text) : Prop :=
  (∃ transformer, setup.options.setting? language = some (.custom transformer)) ∨
    ∃ transformer, setup.IsDefault language transformer

/-- The stage under a key if a condition holds, and none if not. -/
inductive StageIf (setup : RegistrySetup) (condition : Prop) (key : Text) : List Stage → Prop
  | present {stage} (holds : condition) (isStage : setup.IsStage key stage) :
      StageIf setup condition key [stage]
  | absent (fails : ¬condition) : StageIf setup condition key []

/-- A key is configured: it has a setting, and one that does not turn it off. -/
def IsConfigured (setup : RegistrySetup) (key : Text) : Prop :=
  ∃ setting, setup.options.setting? key = some setting ∧ setting ≠ .disabled

/-- The stages behind the first one: for a style `postcss` if it is set and not off,
and then `globalRule` unless it is off. -/
inductive Trails (setup : RegistrySetup) : BlockKind → List Stage → Prop
  | markup : Trails setup .markup []
  | script : Trails setup .script []
  | style {processed globalized}
      (postProcessor : setup.StageIf (setup.IsConfigured postProcessorKey)
        postProcessorKey processed)
      (globalRule : setup.StageIf (setup.options.setting? globalRuleKey ≠ some .disabled)
        globalRuleKey globalized) :
      Trails setup .style (processed ++ globalized)

/-- What comes of asking for the chain of a block under the policy. -/
structure FollowsPolicy
    (setup : RegistrySetup)
    (language : Text)
    (kind : BlockKind)
    (filename : Path)
    (result : Except ComponentError Chain) : Prop where
  /-- It fails for a language that is off. -/
  languageDisabled_iff : result = .error (.languageDisabled language filename) ↔
    setup.options.setting? language = some .disabled
  /-- It fails for any other language that has no transformer. -/
  noTransformer_iff : result = .error (.noTransformer language filename) ↔
    setup.options.setting? language ≠ some .disabled ∧ ¬setup.HasTransformer language
  /-- It succeeds for all the others. -/
  succeeds_iff : (∃ chain, result = .ok chain) ↔
    setup.options.setting? language ≠ some .disabled ∧ setup.HasTransformer language
  /-- The chain is the language's own stage and the trailing ones. -/
  chain_iff : ∀ chain, result = .ok chain ↔
    ∃ own trailing, setup.IsStage language own ∧ setup.Trails kind trailing ∧
      chain = ⟨language, own :: trailing⟩

/-- A second setup differs from a first one at most in the setting of a language. -/
structure DiffersAt (language : Text) (setup changed : RegistrySetup) : Prop where
  compile_eq : changed.compile = setup.compile
  added_eq : changed.added = setup.added
  setting?_eq : ∀ other, other ≠ language →
    changed.options.setting? other = setup.options.setting? other

section IsStage

variable {setup : RegistrySetup} {key : Text} {stage : Stage}

theorem IsStage.not_off (isStage : setup.IsStage key stage) :
    setup.options.setting? key ≠ some .disabled := by
  cases isStage <;> simp [*]

theorem IsStage.hasTransformer (isStage : setup.IsStage key stage) :
    setup.HasTransformer key := by
  cases isStage with
  | custom setting => exact .inl ⟨_, setting⟩
  | configured _ isDefault | enabled _ isDefault | unset _ isDefault =>
      exact .inr ⟨_, isDefault⟩

end IsStage

/-! ## Look-ups -/

section Lookup

variable (setup : RegistrySetup) {key : Text}

theorem registry_eq :
    setup.registry = ⟨Table.putAll setup.added (Registry.builtIn setup.compile),
      setup.options.settings⟩ := by
  have registered : ∀ (added : List (Text × Transformer)) (registry : Registry),
      added.foldl (fun registry (language, transformer) =>
        registry.withDefault language transformer) registry =
          ⟨Table.putAll added registry.defaults, registry.settings⟩ := by
    intro added
    induction added with
    | nil => exact fun _ => rfl
    | cons pair rest ih => exact fun registry => ih _
  exact registered setup.added _

theorem get?_settings :
    Table.get? key setup.registry.settings = setup.options.setting? key := by
  rw [registry_eq]
  exact setup.inOrder.get?_settings key

theorem nodup_keys_builtIn (compile : StyleCompiler) :
    (Table.keys (Registry.builtIn compile)).Nodup := by
  have keys : Table.keys (Registry.builtIn compile) =
      [("html" : Text), "javascript", "css", postProcessorKey, globalRuleKey] := rfl
  rw [keys]
  decide

theorem get?_defaults_eq_some_iff {transformer : Transformer} :
    Table.get? key setup.registry.defaults = some transformer ↔
      setup.IsDefault key transformer := by
  rw [IsDefault, registry_eq, ← Table.get?_putAll_nil_eq_some_iff,
    ← Table.putAll_eq_putAll_nil (nodup_keys_builtIn setup.compile)]

/-- What is found under a key. -/
inductive Finds (setup : RegistrySetup) (key : Text) : Lookup → Prop
  | disabled
      (off : setup.options.setting? key = some .disabled) :
      Finds setup key .disabled
  | missing
      (notOff : setup.options.setting? key ≠ some .disabled)
      (lacks : ¬setup.HasTransformer key) :
      Finds setup key .missing
  | found {stage}
      (isStage : setup.IsStage key stage) :
      Finds setup key (.found stage)

theorem finds_defaultStage
    {options : Table Json}
    (notOff : setup.options.setting? key ≠ some .disabled)
    (notCustom : ∀ transformer, setup.options.setting? key ≠ some (.custom transformer))
    (isStage : ∀ {transformer}, setup.IsDefault key transformer →
      setup.IsStage key ⟨key, transformer, options⟩) :
    setup.Finds key (setup.registry.defaultStage key options) := by
  rw [Registry.defaultStage]
  split
  · rename_i transformer found
    exact .found (isStage (setup.get?_defaults_eq_some_iff.mp found))
  · rename_i notFound
    refine .missing notOff ?_
    rintro (⟨transformer, custom⟩ | ⟨transformer, isDefault⟩)
    · exact notCustom transformer custom
    · cases notFound.symm.trans (setup.get?_defaults_eq_some_iff.mpr isDefault)

theorem finds_lookup (key : Text) : setup.Finds key (setup.registry.lookup key) := by
  rw [Registry.lookup, get?_settings]
  cases looked : setup.options.setting? key with
  | none => exact setup.finds_defaultStage (by simp [looked]) (by simp [looked]) (.unset looked)
  | some setting =>
      cases setting with
      | disabled => exact .disabled looked
      | custom transformer => exact .found (.custom looked)
      | enabled =>
          exact setup.finds_defaultStage (by simp [looked]) (by simp [looked]) (.enabled looked)
      | options options =>
          exact setup.finds_defaultStage (by simp [looked]) (by simp [looked]) (.configured looked)

theorem lookup_eq_disabled_iff :
    setup.registry.lookup key = .disabled ↔ setup.options.setting? key = some .disabled := by
  constructor
  · intro looked
    have finds := setup.finds_lookup key
    rw [looked] at finds
    cases finds with
    | disabled off => exact off
  · intro off
    rw [Registry.lookup, get?_settings, off]

theorem lookup_eq_found_iff {stage : Stage} :
    setup.registry.lookup key = .found stage ↔ setup.IsStage key stage := by
  constructor
  · intro looked
    have finds := setup.finds_lookup key
    rw [looked] at finds
    cases finds with
    | found isStage => exact isStage
  · intro isStage
    rw [Registry.lookup, get?_settings]
    cases isStage with
    | custom setting => rw [setting]
    | configured setting isDefault | enabled setting isDefault | unset setting isDefault =>
        rw [setting]
        dsimp only
        rw [Registry.defaultStage, setup.get?_defaults_eq_some_iff.mpr isDefault]

theorem lookup_eq_missing_iff :
    setup.registry.lookup key = .missing ↔
      setup.options.setting? key ≠ some .disabled ∧ ¬setup.HasTransformer key := by
  constructor
  · intro looked
    have finds := setup.finds_lookup key
    rw [looked] at finds
    cases finds with
    | missing notOff lacks => exact ⟨notOff, lacks⟩
  · rintro ⟨notOff, lacks⟩
    have finds := setup.finds_lookup key
    cases looked : setup.registry.lookup key with
    | missing => rfl
    | disabled => exact absurd (setup.lookup_eq_disabled_iff.mp looked) notOff
    | found stage =>
        exact absurd (setup.lookup_eq_found_iff.mp looked).hasTransformer lacks

/-- There is a stage under a key that is not off and has a transformer. -/
theorem exists_isStage
    (notOff : setup.options.setting? key ≠ some .disabled)
    (hasTransformer : setup.HasTransformer key) :
    ∃ stage, setup.IsStage key stage := by
  cases looked : setup.registry.lookup key with
  | found stage => exact ⟨stage, setup.lookup_eq_found_iff.mp looked⟩
  | disabled => exact absurd (setup.lookup_eq_disabled_iff.mp looked) notOff
  | missing => exact absurd hasTransformer (setup.lookup_eq_missing_iff.mp looked).2

theorem stage?_eq_some_iff {stage : Stage} :
    setup.registry.stage? key = some stage ↔ setup.IsStage key stage := by
  rw [← lookup_eq_found_iff, Registry.stage?]
  split
  · rename_i found looked
    rw [looked, Option.some_inj, Lookup.found.injEq]
  · rename_i notFound
    simpa using notFound stage

theorem stage?_eq_none_of_off (off : setup.options.setting? key = some .disabled) :
    setup.registry.stage? key = none := by
  rw [Registry.stage?, setup.lookup_eq_disabled_iff.mpr off]

/-- The stage of a key with a transformer is there if the key is not off. -/
theorem stageIf_stage?
    {condition : Prop}
    (holds : condition)
    (notOff : setup.options.setting? key ≠ some .disabled)
    (hasTransformer : setup.HasTransformer key) :
    setup.StageIf condition key (setup.registry.stage? key).toList := by
  obtain ⟨stage, isStage⟩ := setup.exists_isStage notOff hasTransformer
  rw [setup.stage?_eq_some_iff.mpr isStage]
  exact .present holds isStage

end Lookup

/-! ## Trailing stages -/

section Unique

variable {setup : RegistrySetup} {key : Text}

theorem IsStage.unique
    {first second : Stage}
    (isFirst : setup.IsStage key first)
    (isSecond : setup.IsStage key second) :
    first = second := by
  rw [← lookup_eq_found_iff] at isFirst isSecond
  exact Lookup.found.inj (isFirst.symm.trans isSecond)

theorem StageIf.unique
    {condition : Prop}
    {first second : List Stage}
    (isFirst : setup.StageIf condition key first)
    (isSecond : setup.StageIf condition key second) :
    first = second := by
  cases isFirst with
  | present holds isStage =>
      cases isSecond with
      | present _ other => rw [isStage.unique other]
      | absent fails => exact absurd holds fails
  | absent fails =>
      cases isSecond with
      | present holds _ => exact absurd holds fails
      | absent _ => rfl

theorem Trails.unique
    {kind : BlockKind}
    {first second : List Stage}
    (isFirst : setup.Trails kind first)
    (isSecond : setup.Trails kind second) :
    first = second := by
  cases isFirst with
  | markup => cases isSecond; rfl
  | script => cases isSecond; rfl
  | style processed globalized =>
      cases isSecond with
      | style otherProcessed otherGlobalized =>
          rw [processed.unique otherProcessed, globalized.unique otherGlobalized]

end Unique

section Trails

variable (setup : RegistrySetup)

theorem hasTransformer_of_mem_builtIn
    {key : Text}
    (builtIn : key ∈ Table.keys (Registry.builtIn setup.compile)) :
    setup.HasTransformer key := by
  refine .inr (Table.exists_isLast_of_mem_keys ?_)
  rw [Table.keys, List.map_append]
  exact List.mem_append_left _ builtIn

theorem postProcessorEnabled_iff :
    setup.registry.postProcessorEnabled = true ↔ setup.IsConfigured postProcessorKey := by
  rw [Registry.postProcessorEnabled, get?_settings, IsConfigured]
  cases setup.options.setting? postProcessorKey with
  | none => simp
  | some setting => cases setting <;> simp [Setting.isDisabled]

theorem trails_trailingStages (kind : BlockKind) :
    setup.Trails kind (setup.registry.trailingStages kind) := by
  cases kind with
  | markup => exact .markup
  | script => exact .script
  | style =>
      refine .style ?_ ?_
      · split
        · rename_i enabled
          have configured := setup.postProcessorEnabled_iff.mp enabled
          refine setup.stageIf_stage? configured ?_
            (setup.hasTransformer_of_mem_builtIn (by simp [Registry.builtIn, Table.keys]))
          obtain ⟨setting, set, notOff⟩ := configured
          rw [set]
          exact fun off => notOff (Option.some.inj off)
        · rename_i notEnabled
          exact .absent (mt setup.postProcessorEnabled_iff.mpr notEnabled)
      · by_cases off : setup.options.setting? globalRuleKey = some .disabled
        · rw [setup.stage?_eq_none_of_off off]
          exact .absent (not_not.mpr off)
        · exact setup.stageIf_stage? off off
            (setup.hasTransformer_of_mem_builtIn (by simp [Registry.builtIn, Table.keys]))

end Trails

/-! ## Chains -/

section Chain

variable (setup : RegistrySetup) (language : Text) (kind : BlockKind) (filename : Path)

theorem chain_eq_languageDisabled_iff :
    setup.registry.chain language kind filename = .error (.languageDisabled language filename) ↔
      setup.options.setting? language = some .disabled := by
  rw [← lookup_eq_disabled_iff, Registry.chain]
  cases setup.registry.lookup language <;> simp

theorem chain_eq_noTransformer_iff :
    setup.registry.chain language kind filename = .error (.noTransformer language filename) ↔
      setup.options.setting? language ≠ some .disabled ∧ ¬setup.HasTransformer language := by
  rw [← lookup_eq_missing_iff, Registry.chain]
  cases setup.registry.lookup language <;> simp

theorem chain_eq_ok_iff {chain : Chain} :
    setup.registry.chain language kind filename = .ok chain ↔
      ∃ own, setup.IsStage language own ∧
        chain = ⟨language, own :: setup.registry.trailingStages kind⟩ := by
  simp only [← lookup_eq_found_iff, Registry.chain]
  cases setup.registry.lookup language <;> simp [eq_comm]

theorem followsPolicy_chain :
    setup.FollowsPolicy language kind filename
      (setup.registry.chain language kind filename) where
  languageDisabled_iff := setup.chain_eq_languageDisabled_iff language kind filename
  noTransformer_iff := setup.chain_eq_noTransformer_iff language kind filename
  succeeds_iff := by
    constructor
    · rintro ⟨chain, made⟩
      obtain ⟨own, isStage, -⟩ := (setup.chain_eq_ok_iff language kind filename).mp made
      exact ⟨isStage.not_off, isStage.hasTransformer⟩
    · rintro ⟨notOff, hasTransformer⟩
      obtain ⟨own, isStage⟩ := setup.exists_isStage notOff hasTransformer
      exact ⟨_, (setup.chain_eq_ok_iff language kind filename).mpr ⟨own, isStage, rfl⟩⟩
  chain_iff chain := by
    rw [chain_eq_ok_iff]
    constructor
    · rintro ⟨own, isStage, rfl⟩
      exact ⟨own, _, isStage, setup.trails_trailingStages kind, rfl⟩
    · rintro ⟨own, trailing, isStage, trails, rfl⟩
      exact ⟨own, isStage, by rw [trails.unique (setup.trails_trailingStages kind)]⟩

end Chain

/-! ## Another setting for a language -/

section DiffersAt

variable {language : Text} {setup changed : RegistrySetup}

theorem DiffersAt.isDefault
    (differs : DiffersAt language setup changed)
    {key : Text}
    {transformer : Transformer}
    (isDefault : setup.IsDefault key transformer) :
    changed.IsDefault key transformer := by
  rwa [IsDefault, differs.compile_eq, differs.added_eq]

theorem DiffersAt.isStage
    (differs : DiffersAt language setup changed)
    {key : Text}
    (otherKey : key ≠ language)
    {stage : Stage}
    (isStage : setup.IsStage key stage) :
    changed.IsStage key stage := by
  have same := differs.setting?_eq key otherKey
  cases isStage with
  | custom setting => exact .custom (same.trans setting)
  | configured setting isDefault =>
      exact .configured (same.trans setting) (differs.isDefault isDefault)
  | enabled setting isDefault =>
      exact .enabled (same.trans setting) (differs.isDefault isDefault)
  | unset setting isDefault => exact .unset (same.trans setting) (differs.isDefault isDefault)

theorem DiffersAt.stageIf
    (differs : DiffersAt language setup changed)
    {key : Text}
    (otherKey : key ≠ language)
    {condition changedCondition : Prop}
    (sameCondition : changedCondition ↔ condition)
    {stages : List Stage}
    (stageIf : setup.StageIf condition key stages) :
    changed.StageIf changedCondition key stages := by
  cases stageIf with
  | present holds isStage =>
      exact .present (sameCondition.mpr holds) (differs.isStage otherKey isStage)
  | absent fails => exact .absent (mt sameCondition.mp fails)

/-- The trailing stages are settled by the settings of their own keys. -/
theorem DiffersAt.trails
    (differs : DiffersAt language setup changed)
    (notPostProcessor : language ≠ postProcessorKey)
    (notGlobalRule : language ≠ globalRuleKey)
    {kind : BlockKind}
    {stages : List Stage}
    (trails : setup.Trails kind stages) :
    changed.Trails kind stages := by
  cases trails with
  | markup => exact .markup
  | script => exact .script
  | style postProcessor globalRule =>
      refine .style (differs.stageIf notPostProcessor.symm ?_ postProcessor)
        (differs.stageIf notGlobalRule.symm ?_ globalRule)
      · rw [IsConfigured, IsConfigured, differs.setting?_eq _ notPostProcessor.symm]
      · rw [differs.setting?_eq _ notGlobalRule.symm]

theorem DiffersAt.trailingStages_eq
    (differs : DiffersAt language setup changed)
    (notPostProcessor : language ≠ postProcessorKey)
    (notGlobalRule : language ≠ globalRuleKey)
    (kind : BlockKind) :
    changed.registry.trailingStages kind = setup.registry.trailingStages kind :=
  (changed.trails_trailingStages kind).unique
    (differs.trails notPostProcessor notGlobalRule (setup.trails_trailingStages kind))

/-- The setup with another setting for a language. -/
def withSetting (setup : RegistrySetup) (language : Text) (setting : Setting) :
    RegistrySetup where
  compile := setup.compile
  options := setup.options.withTransformer language setting
  inOrder := setup.inOrder.withTransformer language setting
  added := setup.added

theorem differsAt_withSetting (setup : RegistrySetup) (language : Text) (setting : Setting) :
    DiffersAt language setup (setup.withSetting language setting) where
  compile_eq := rfl
  added_eq := rfl
  setting?_eq other different := by
    change (setup.options.withTransformer language setting).setting? other = _
    rw [Options.setting?, Options.withTransformer, Table.get?_putSorted, if_neg different,
      Options.setting?]

end DiffersAt

/-- The chain of a block follows the policy, whatever the options and default
transformers are.  So whichever setting a language gets, other than `postcss` and
`globalRule`, the stages behind the first one are those that the policy gives without
that change, in every chain that there is. -/
theorem chain_follows_policy
    (setup : RegistrySetup)
    (language : Text)
    (kind : BlockKind)
    (filename : Path) :
    setup.FollowsPolicy language kind filename
        (setup.registry.chain language kind filename) ∧
      ∀ {set changed},
        DiffersAt set setup changed →
        set ≠ postProcessorKey →
        set ≠ globalRuleKey →
        ∀ {chain},
          changed.registry.chain language kind filename = .ok chain →
          setup.Trails kind chain.stages.tail ∧
            ∀ {before},
              setup.registry.chain language kind filename = .ok before →
              chain.stages.tail = before.stages.tail := by
  refine ⟨setup.followsPolicy_chain language kind filename, ?_⟩
  intro set changed differs notPostProcessor notGlobalRule chain made
  obtain ⟨own, -, rfl⟩ := (changed.chain_eq_ok_iff language kind filename).mp made
  rw [List.tail_cons, differs.trailingStages_eq notPostProcessor notGlobalRule]
  refine ⟨setup.trails_trailingStages kind, ?_⟩
  intro before madeBefore
  obtain ⟨other, -, rfl⟩ := (setup.chain_eq_ok_iff language kind filename).mp madeBefore
  rw [List.tail_cons]

/-- A language with options for its default transformer, in a run with a configured
post-processor. -/
def minifiedScss : RegistrySetup where
  compile := fun _ _ _ => .error []
  options :=
    { Options.empty with
      transformers := [("postcss", .options [("minify", .bool true)])]
      shorthand := [("scss", .object [("indentedSyntax", .bool true)])] }
  inOrder := ⟨List.pairwise_singleton _ _, List.pairwise_singleton _ _⟩
  added := [("scss", .globalRule id), ("scss", .identity)]

/-- The stages behind that language in the run. -/
def minifiedTrail : List Stage :=
  [⟨postProcessorKey, .postProcessor minifiedScss.compile, [("minify", .bool true)]⟩,
    ⟨globalRuleKey, .globalRule Selector.globalize, []⟩]

theorem chain_follows_policy_minifiedScss :
    minifiedScss.registry.chain "scss" .style [] =
        .ok ⟨"scss", ⟨"scss", .identity, [("indentedSyntax", .bool true)]⟩ :: minifiedTrail⟩ ∧
      (minifiedScss.withSetting "scss" (.custom .identity)).registry.chain "scss" .style [] =
        .ok ⟨"scss", ⟨"scss", .identity, []⟩ :: minifiedTrail⟩ ∧
      minifiedScss.Trails .style minifiedTrail := by
  have before : minifiedScss.registry.chain "scss" .style [] =
      .ok ⟨"scss", ⟨"scss", .identity, [("indentedSyntax", .bool true)]⟩ :: minifiedTrail⟩ := by
    rfl
  have made :
      (minifiedScss.withSetting "scss" (.custom .identity)).registry.chain "scss" .style [] =
        .ok ⟨"scss", ⟨"scss", .identity, []⟩ :: minifiedTrail⟩ := by
    rfl
  have follows := chain_follows_policy minifiedScss "scss" .style []
  exact ⟨before, made, (follows.2 (differsAt_withSetting minifiedScss "scss" (.custom .identity))
    (by decide) (by decide) made).1⟩

end RegistrySetup
end ComponentPipeline
