import ComponentPipeline.Proofs.Chain.Steps
import ComponentPipeline.Proofs.Document.Agreement
import ComponentPipeline.Registry

/-!
# Chains of indifferent transformers

A transformer is indifferent to maps if it does the same whether or not they are
asked for, except that it may give one where it is asked.  A chain of such
transformers gives the same code and dependencies without maps, or fails in the
same way, unless its maps cannot be chained.
-/

namespace ComponentPipeline

/-! ## Transformers -/

/-- The work of a transformer is what it is without maps, except that it may
give a map if maps are asked for, and take other turns.  It fails for no reason
that is about maps, and it does not panic. -/
inductive WorksAlike (mapped : Bool) :
    Job (Except Failure Result) → Job (Except Failure Result) → Prop
  | gave {turns plainTurns result}
      (unasked : mapped = false → result.map = none) :
      WorksAlike mapped (.done turns (.ok result))
        (.done plainTurns (.ok ⟨result.code, none, result.dependencies⟩))
  | failed {turns plainTurns failure}
      (notOfMaps : ∀ cause, failure ≠ .known (.sourceMap cause)) :
      WorksAlike mapped (.done turns (.error failure)) (.done plainTurns (.error failure))
  | never : WorksAlike mapped .never .never

/-- A transformer works alike with and without maps, whatever it is run on. -/
def Transformer.Indifferent (transformer : Transformer) : Prop :=
  ∀ (context : Context) (content : Text),
    WorksAlike context.sourceMap (transformer.run context content)
      (transformer.run { context with sourceMap := false } content)

theorem Transformer.indifferent_identity : Transformer.identity.Indifferent :=
  fun _ _ => .gave fun _ => rfl

theorem Transformer.indifferent_globalRule (neutralize : Text → Text) :
    (Transformer.globalRule neutralize).Indifferent := by
  intro context content
  simp only [run, removeGlobalMarkers]
  split
  · cases Css.Stylesheet.parse content with
    | error error =>
        refine .failed ?_
        rintro cause ⟨⟩
    | ok sheet =>
        cases globalized : sheet.globalize neutralize with
        | error malformed =>
            simp only [globalized]
            refine .failed ?_
            rintro cause ⟨⟩
        | ok sheet =>
            simp only [globalized]
            refine .gave fun unasked => ?_
            simp only [unasked]
            rfl
  · exact .gave fun _ => rfl

/-- Every transformer that a registry has under a language works alike with and
without maps. -/
def Registry.Indifferent (registry : Registry) : Prop :=
  ∀ key stage, registry.lookup key = .found stage → stage.transformer.Indifferent

theorem Table.mem_of_get?
    {α : Type}
    {key : Text}
    {table : Table α}
    {value : α}
    (found : Table.get? key table = some value) :
    (key, value) ∈ table := by
  obtain ⟨before, after, rfl, -⟩ := List.lookup_eq_some_iff.mp found
  simp

/-- Transformers that all work alike make a registry that does. -/
theorem Registry.indifferent_of_forall
    {registry : Registry}
    (defaults : ∀ entry ∈ registry.defaults, entry.2.Indifferent)
    (settings : ∀ key transformer, (key, .custom transformer) ∈ registry.settings →
      transformer.Indifferent) :
    registry.Indifferent := by
  intro key stage found
  have ofDefault {options : Table Json}
      (looked : registry.defaultStage key options = .found stage) :
      stage.transformer.Indifferent := by
    unfold defaultStage at looked
    split at looked
    · rename_i transformer listed
      cases looked
      exact defaults _ (Table.mem_of_get? listed)
    · cases looked
  unfold lookup at found
  split at found
  · cases found
  · rename_i transformer listed
    cases found
    exact settings key transformer (Table.mem_of_get? listed)
  · exact ofDefault found
  · exact ofDefault found
  · exact ofDefault found

theorem Registry.lookup_of_stage?
    {registry : Registry}
    {key : Text}
    {stage : Stage}
    (found : registry.stage? key = some stage) :
    registry.lookup key = .found stage := by
  unfold stage? at found
  split at found
  · rename_i looked
    cases found
    exact looked
  · cases found

/-- The stages of a chain are stages of its registry. -/
theorem Registry.exists_lookup_of_chain
    {registry : Registry}
    {language : Text}
    {kind : BlockKind}
    {filename : Path}
    {chain : Chain}
    (built : registry.chain language kind filename = .ok chain)
    {stage : Stage}
    (member : stage ∈ chain.stages) :
    ∃ key, registry.lookup key = .found stage := by
  unfold Registry.chain at built
  split at built
  · cases built
  · cases built
  · rename_i first found
    cases built
    rcases List.mem_cons.mp member with rfl | trailing
    · exact ⟨language, found⟩
    · unfold trailingStages at trailing
      split at trailing
      · rcases List.mem_append.mp trailing with processed | global
        · split at processed
          · exact ⟨_, lookup_of_stage? (Option.mem_toList.mp processed)⟩
          · cases processed
        · exact ⟨_, lookup_of_stage? (Option.mem_toList.mp global)⟩
      · cases trailing

/-! ## Chains -/

/-- A run of a chain has come as far as the same run without maps. -/
structure Progress.Matches (mapped : Bool) (progress plain : Progress) : Prop where
  code : progress.code = plain.code
  dependencies : progress.dependencies = plain.dependencies
  plainMap : plain.map = none
  unasked : mapped = false → progress.map = none

/-- The output of a chain is that of the same chain without maps. -/
structure ChainOutput.Matches (output plain : ChainOutput) : Prop where
  code : output.code = plain.code
  dependencies : output.dependencies = plain.dependencies

section Chain

variable {mapped : Bool} {caught plainCaught : Option Text → Option ComponentError}

/-- A stage that works alike takes a run as far as the same run without maps. -/
theorem Progress.Matches.next
    {progress plain : Progress}
    (same : progress.Matches mapped plain)
    {result : Result}
    (unasked : mapped = false → result.map = none)
    (invocation plainInvocation : Invocation) :
    Outcome.Agrees mapped (Progress.Matches mapped)
      (.ofExcept (progress.next result invocation))
      (.ofExcept (plain.next ⟨result.code, none, result.dependencies⟩ plainInvocation)) := by
  have plainNext : plain.next ⟨result.code, none, result.dependencies⟩ plainInvocation =
      .ok ⟨result.code, none, plain.dependencies ++ result.dependencies,
        plain.invocations ++ [plainInvocation]⟩ := by
    simp only [Progress.next, Progress.nextMap, same.plainMap]
  rw [plainNext]
  cases mapped with
  | false =>
      simp only [Progress.next, Progress.nextMap, same.unasked rfl, unasked rfl]
      exact .finished ⟨rfl, congrArg (· ++ _) same.dependencies, rfl, fun _ => rfl⟩
  | true =>
      unfold Progress.next
      split
      · exact .mapFailed rfl
      · exact .finished ⟨rfl, congrArg (· ++ _) same.dependencies, rfl, nofun⟩

theorem Failure.report_ne_sourceMap
    {failure : Failure}
    {wrap : Text → ComponentError}
    (notOfMaps : ∀ cause, failure ≠ .known (.sourceMap cause))
    (wrapped : ∀ message cause, wrap message ≠ .sourceMap cause)
    (cause : Text) :
    failure.report wrap ≠ .sourceMap cause := by
  cases failure with
  | known error => exact fun same => notOfMaps cause (congrArg _ same)
  | unreadable error => exact wrapped _ cause
  | other message => exact wrapped _ cause

/-- A chain that is not asked for maps. -/
def ChainInput.withoutMaps (input : ChainInput) : ChainInput :=
  { input with sourceMap := false }

theorem agrees_runStages
    (input : ChainInput)
    (language : Text)
    {stages : List Stage}
    (indifferent : ∀ stage ∈ stages, stage.transformer.Indifferent)
    (index turn plainTurn : Nat)
    {progress plain : Progress}
    (same : progress.Matches input.sourceMap plain) :
    Outcome.Agrees input.sourceMap (Progress.Matches input.sourceMap)
      (.ofJob caught (input.runStages language index turn progress stages))
      (.ofJob plainCaught
        (input.withoutMaps.runStages language index plainTurn plain stages)) := by
  induction stages generalizing index turn plainTurn progress plain with
  | nil => exact .finished same
  | cons stage rest ih =>
      have works : WorksAlike input.sourceMap
          (stage.transformer.run (input.context language stage) progress.code)
          (stage.transformer.run (input.withoutMaps.context language stage) plain.code) := by
        rw [← same.code]
        exact indifferent stage List.mem_cons_self (input.context language stage) progress.code
      -- Turns and invocations may differ from here on, texts and files do not.
      rw [ofJob_runStages_cons, ofJob_runStages_cons]
      generalize stage.transformer.run (input.context language stage) progress.code = work
        at works ⊢
      generalize stage.transformer.run (input.withoutMaps.context language stage) plain.code =
        plainWork at works ⊢
      cases works with
      | gave unasked =>
          exact (same.next unasked _ _).bind fun _ _ sameNext =>
            ih (fun other member => indifferent other (List.mem_cons_of_mem _ member)) _ _ _
              sameNext
      | failed notOfMaps =>
          exact .failed (Failure.report_ne_sourceMap notOfMaps fun _ _ => nofun)
      | never => exact .pending

/-- A chain gives the same code and dependencies without maps. -/
theorem agrees_run
    (input : ChainInput)
    {chain : Chain}
    (indifferent : ∀ stage ∈ chain.stages, stage.transformer.Indifferent)
    (content : Text) :
    Outcome.Agrees input.sourceMap ChainOutput.Matches
      (.ofJob caught (chain.run input content))
      (.ofJob plainCaught (chain.run input.withoutMaps content)) := by
  unfold Chain.run
  rw [Outcome.ofJob_map_map, Outcome.ofJob_map_map]
  have start : Progress.Matches input.sourceMap (.ofContent content) (.ofContent content) :=
    ⟨rfl, rfl, rfl, fun _ => rfl⟩
  exact (agrees_runStages input chain.language indifferent 0 0 0 start).bind fun _ _ same =>
    .finished ⟨same.code, congrArg distinctPaths same.dependencies⟩

end Chain

end ComponentPipeline
