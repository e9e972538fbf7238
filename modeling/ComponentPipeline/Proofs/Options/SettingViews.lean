import ComponentPipeline.Proofs.Options.Settings
import ComponentPipeline.Proofs.Table.LastPairs

/-!
# Two views of the settings

A registry takes the settings of all languages from one table, and the preparation of
a content looks up the setting of its language alone.  Options that were read and then
changed in code in any way answer both with the same setting, so that a language's
transformer and the preparation of its contents are never set up differently.
-/

namespace ComponentPipeline

/-! ## Settings as values write them -/

/-- A value writes a setting.  Only booleans and objects do. -/
inductive Setting.WrittenBy : Json → Setting → Prop
  | off : WrittenBy (.bool false) .disabled
  | on : WrittenBy (.bool true) .enabled
  | members (members : Table Json) : WrittenBy (.object members) (.options members)

theorem Setting.ofJson?_eq_some_iff {value : Json} {setting : Setting} :
    ofJson? value = some setting ↔ WrittenBy value setting := by
  constructor
  · intro read
    cases value with
    | bool flag =>
        cases flag with
        | false => cases read; exact .off
        | true => cases read; exact .on
    | object members => cases read; exact .members members
    | null | number _ | string _ | array _ => cases read
  · rintro ⟨⟩ <;> rfl

/-- A change of the values of a table adds no keys. -/
theorem Table.keys_filterMap_sublist
    {α β : Type}
    (change : α → Option β)
    (table : Table α) :
    (keys (table.filterMap fun (key, value) =>
      (change value).map fun changed => (key, changed))).Sublist table.keys := by
  induction table with
  | nil => exact .slnil
  | cons pair rest ih =>
      obtain ⟨key, value⟩ := pair
      cases changes : change value with
      | none =>
          rw [List.filterMap_cons_none (by simp [changes])]
          exact ih.cons key
      | some changed =>
          rw [List.filterMap_cons_some (by simp [changes]; rfl)]
          exact ih.cons_cons key

namespace Options

/-! ## Changes in code -/

/-- A change that code makes to options. -/
inductive Change
  /-- Whether common indentation is removed is set. -/
  | stripIndent (value : Bool)
  /-- The data before every content are set. -/
  | prependData (data : Text)
  /-- Whether a source map is asked for is set. -/
  | sourceMap (value : Bool)
  /-- The setting of a language is set. -/
  | transformer (language : Text) (setting : Setting)
  /-- An alias is added. -/
  | aliasFor (token language : Text)
  /-- The hook on the whole document is set. -/
  | onBefore (hook : DocumentHook)

/-- The options after one more change. -/
def apply (options : Options) : Change → Options
  | .stripIndent value => options.withStripIndent value
  | .prependData data => options.withPrependData data
  | .sourceMap value => options.withSourceMap value
  | .transformer language setting => options.withTransformer language setting
  | .aliasFor token language => options.withAlias token language
  | .onBefore hook => options.withOnBefore hook

/-- The options after changes. -/
def after (options : Options) (changes : List Change) : Options :=
  changes.foldl apply options

theorem inKeyOrder_of_ofText?
    {text : Text}
    {options : Options}
    (read : ofText? text = some options) :
    options.InKeyOrder := by
  obtain ⟨value, -, read⟩ := Option.bind_eq_some_iff.mp read
  cases value with
  | object members => exact inKeyOrder_of_ofMembers? read
  | null | bool _ | number _ | string _ | array _ => cases read

/-- Every change leaves the tables in the order of their keys. -/
theorem InKeyOrder.apply
    {options : Options}
    (inOrder : options.InKeyOrder)
    (change : Change) :
    (options.apply change).InKeyOrder := by
  cases change with
  | transformer language setting => exact inOrder.withTransformer language setting
  | stripIndent _ | prependData _ | sourceMap _ | aliasFor _ _ | onBefore _ =>
      exact ⟨inOrder.transformers, inOrder.shorthand⟩

theorem InKeyOrder.after
    {options : Options}
    (inOrder : options.InKeyOrder)
    (changes : List Change) :
    (options.after changes).InKeyOrder := by
  induction changes generalizing options with
  | nil => exact inOrder
  | cons change rest ih => exact ih (inOrder.apply change)

/-! ## The setting that counts -/

/-- A setting counts for a language. -/
inductive Counts (options : Options) (language : Text) : Setting → Prop
  /-- One under `transformers` does, whatever is written at the top level. -/
  | explicit {setting}
      (entry : (language, setting) ∈ options.transformers) :
      Counts options language setting
  /-- One at the top level does if there is none under `transformers`. -/
  | shorthand {value setting}
      (noEntry : language ∉ options.transformers.keys)
      (entry : (language, value) ∈ options.shorthand)
      (writes : Setting.WrittenBy value setting) :
      Counts options language setting

section InKeyOrder

variable {options : Options}

theorem InKeyOrder.setting?_eq_some_iff
    (inOrder : options.InKeyOrder)
    {language : Text}
    {setting : Setting} :
    options.setting? language = some setting ↔ options.Counts language setting := by
  have explicitly : ∀ {found}, (language, found) ∈ options.transformers ↔
      Table.get? language options.transformers = some found :=
    Table.mem_iff_get?_eq_some inOrder.transformers.nodup
  constructor
  · intro looked
    rcases Option.or_eq_some_iff.mp looked with found | ⟨notFound, found⟩
    · exact .explicit (explicitly.mpr found)
    · obtain ⟨value, stands, read⟩ := Option.bind_eq_some_iff.mp found
      refine .shorthand ?_ ((Table.mem_iff_get?_eq_some inOrder.shorthand.nodup).mpr stands)
        (Setting.ofJson?_eq_some_iff.mp read)
      intro listed
      obtain ⟨⟨_, other⟩, member, rfl⟩ := List.mem_map.mp listed
      cases notFound.symm.trans (explicitly.mp member)
  · intro counts
    cases counts with
    | explicit entry => rw [setting?, explicitly.mp entry, Option.some_or]
    | shorthand noEntry entry writes =>
        rw [setting?, Table.get?_eq_none_of_not_mem_keys noEntry, Option.none_or,
          (Table.mem_iff_get?_eq_some inOrder.shorthand.nodup).mp entry, Option.bind_some,
          Setting.ofJson?_eq_some_iff.mpr writes]

/-- What is written at the top level keeps its order as settings. -/
theorem InKeyOrder.shorthandSettings (inOrder : options.InKeyOrder) :
    options.shorthandSettings.InKeyOrder :=
  List.Pairwise.sublist (Table.keys_filterMap_sublist _ _) inOrder.shorthand

/-- The table of all settings has an entry for what counts. -/
theorem InKeyOrder.mem_settings_iff
    (inOrder : options.InKeyOrder)
    {language : Text}
    {setting : Setting} :
    (language, setting) ∈ options.settings ↔ options.setting? language = some setting := by
  have settingsInOrder : options.settings.InKeyOrder :=
    Table.inKeyOrder_putAllSorted inOrder.shorthandSettings options.transformers
  rw [Table.mem_iff_get?_eq_some settingsInOrder.nodup, inOrder.get?_settings]

end InKeyOrder

/-! ## Preparation -/

/-- The value under a key of preparation that the options have for all languages. -/
inductive IsGeneral (options : Options) : Text → Option Json → Prop
  | stripIndent : IsGeneral options "stripIndent" (some (.bool options.stripIndent))
  | prependData : IsGeneral options "prependData" (options.prependData.map .string)

/-- What the blocks of a language are prepared with under a key: the value in the
options that the language has in the table of all settings, or the general one if it
has no options or they lack the key. -/
inductive PreparedWith (options : Options) (language : Text) : Text → Option Json → Prop
  | own {key members value}
      (isKey : key ∈ preparationKeys)
      (entry : (language, .options members) ∈ options.settings)
      (has : Table.get? key members = some value) :
      PreparedWith options language key (some value)
  | general {key value}
      (isGeneral : options.IsGeneral key value)
      (noOwn : ∀ members, (language, .options members) ∈ options.settings →
        Table.get? key members = none) :
      PreparedWith options language key value
  | otherKey {key}
      (notKey : key ∉ preparationKeys) :
      PreparedWith options language key none

/-- A table with the value that another one has under a key, if it has one. -/
def override (own table : Table Json) (key : Text) : Table Json :=
  match Table.get? key own with
  | some value => Table.put key value table
  | none => table

section Preparation

variable {options : Options} {language : Text}

theorem get?_generalPreparation_prependData (options : Options) :
    Table.get? "prependData" options.generalPreparation =
      options.prependData.map .string := by
  rw [generalPreparation]
  cases options.prependData <;> rfl

theorem isGeneral_iff {key : Text} {value : Option Json} :
    options.IsGeneral key value ↔
      key ∈ preparationKeys ∧ Table.get? key options.generalPreparation = value := by
  constructor
  · intro isGeneral
    cases isGeneral with
    | stripIndent => exact ⟨by decide, rfl⟩
    | prependData => exact ⟨by decide, get?_generalPreparation_prependData options⟩
  · rintro ⟨isKey, rfl⟩
    rcases List.mem_pair.mp isKey with rfl | rfl
    · exact .stripIndent
    · rw [get?_generalPreparation_prependData]
      exact .prependData

theorem get?_generalPreparation_of_not_mem
    {key : Text}
    (notKey : key ∉ preparationKeys) :
    Table.get? key options.generalPreparation = none := by
  obtain ⟨notStrip, notPrepend⟩ := not_or.mp (mt List.mem_pair.mpr notKey)
  rw [generalPreparation, Table.get?_cons, if_neg notStrip]
  cases options.prependData with
  | none => rfl
  | some data =>
      rw [Option.map_some, Option.toList_some, Table.get?_cons, if_neg notPrepend,
        Table.get?_nil]

theorem get?_override (own table : Table Json) (key asked : Text) :
    Table.get? asked (override own table key) =
      if asked = key then (Table.get? asked own).or (Table.get? asked table)
      else Table.get? asked table := by
  unfold override
  split
  · rename_i value found
    rw [Table.get?_put]
    split
    · rename_i same
      rw [same, found, Option.some_or]
    · rfl
  · rename_i notFound
    split
    · rename_i same
      rw [same, notFound, Option.none_or]
    · rfl

theorem get?_foldl_override
    (own : Table Json)
    (keys : List Text)
    (table : Table Json)
    (asked : Text) :
    Table.get? asked (keys.foldl (override own) table) =
      if asked ∈ keys then (Table.get? asked own).or (Table.get? asked table)
      else Table.get? asked table := by
  induction keys generalizing table with
  | nil => rfl
  | cons key rest ih =>
      rw [List.foldl_cons, ih, get?_override]
      by_cases here : asked = key
      · subst here
        rw [if_pos rfl, if_pos List.mem_cons_self, ← Option.or_assoc, Option.or_self, ite_self]
      · simp only [here, List.mem_cons, false_or, if_false]

theorem preparation_of_options
    {own : Table Json}
    (looked : options.setting? language = some (.options own)) :
    options.preparation language =
      preparationKeys.foldl (override own) options.generalPreparation := by
  rw [preparation, looked]
  rfl

theorem preparation_of_no_options
    (noOptions : ∀ own, options.setting? language ≠ some (.options own)) :
    options.preparation language = options.generalPreparation := by
  rw [preparation]
  split
  · rename_i own looked
    exact absurd looked (noOptions own)
  · rfl

theorem exists_preparedWith (options : Options) (language key : Text) :
    ∃ value, options.PreparedWith language key value := by
  by_cases isKey : key ∈ preparationKeys
  · by_cases noOwn : ∀ members, (language, .options members) ∈ options.settings →
        Table.get? key members = none
    · exact ⟨_, .general (isGeneral_iff.mpr ⟨isKey, rfl⟩) noOwn⟩
    · push Not at noOwn
      obtain ⟨members, entry, has⟩ := noOwn
      obtain ⟨value, has⟩ := Option.ne_none_iff_exists'.mp has
      exact ⟨some value, .own isKey entry has⟩
  · exact ⟨none, .otherKey isKey⟩

theorem InKeyOrder.get?_preparation_of_preparedWith
    (inOrder : options.InKeyOrder)
    {key : Text}
    {value : Option Json}
    (prepared : options.PreparedWith language key value) :
    Table.get? key (options.preparation language) = value := by
  -- The preparation asks the look-up, and the statement asks the table of all settings.
  by_cases looked : ∃ own, options.setting? language = some (.options own)
  · obtain ⟨own, looked⟩ := looked
    rw [preparation_of_options looked, get?_foldl_override]
    cases prepared with
    | own isKey entry has =>
        cases looked.symm.trans (inOrder.mem_settings_iff.mp entry)
        rw [if_pos isKey, has, Option.some_or]
    | general isGeneral noOwn =>
        obtain ⟨isKey, general⟩ := isGeneral_iff.mp isGeneral
        rw [if_pos isKey, noOwn own (inOrder.mem_settings_iff.mpr looked), Option.none_or, general]
    | otherKey notKey => rw [if_neg notKey, get?_generalPreparation_of_not_mem notKey]
  · rw [preparation_of_no_options (not_exists.mp looked)]
    cases prepared with
    | own isKey entry has => exact absurd ⟨_, inOrder.mem_settings_iff.mp entry⟩ looked
    | general isGeneral noOwn => exact (isGeneral_iff.mp isGeneral).2
    | otherKey notKey => exact get?_generalPreparation_of_not_mem notKey

theorem InKeyOrder.get?_preparation_iff
    (inOrder : options.InKeyOrder)
    {key : Text}
    {value : Option Json} :
    Table.get? key (options.preparation language) = value ↔
      options.PreparedWith language key value := by
  constructor
  · rintro rfl
    obtain ⟨value, prepared⟩ := exists_preparedWith options language key
    rwa [inOrder.get?_preparation_of_preparedWith prepared]
  · exact inOrder.get?_preparation_of_preparedWith

end Preparation

/-! ## The two views -/

/-- The two views of the settings agree on a language. -/
structure ViewsAgree (options : Options) (language : Text) : Prop where
  /-- The table of all settings has exactly the entry that is found by the look-up. -/
  entry_iff : ∀ setting,
    (language, setting) ∈ options.settings ↔ options.setting? language = some setting
  /-- What is found is the setting that counts. -/
  setting_iff : ∀ setting,
    options.setting? language = some setting ↔ options.Counts language setting
  /-- The language's blocks are prepared as the same entry has it. -/
  preparation_iff : ∀ key value,
    Table.get? key (options.preparation language) = value ↔
      options.PreparedWith language key value

theorem InKeyOrder.viewsAgree
    {options : Options}
    (inOrder : options.InKeyOrder)
    (language : Text) :
    options.ViewsAgree language where
  entry_iff _ := inOrder.mem_settings_iff
  setting_iff _ := inOrder.setting?_eq_some_iff
  preparation_iff _ _ := inOrder.get?_preparation_iff

/-- Options that were read from a text and changed in code in any way have one setting
for a language, whichever way it is asked for: an entry under `transformers`, else a
boolean or an object at the top level.  If it is an object, the language's contents
are prepared with what it has under the keys of preparation. -/
theorem viewsAgree_after
    {text : Text}
    {options : Options}
    (read : ofText? text = some options)
    (changes : List Change)
    (language : Text) :
    (options.after changes).ViewsAgree language :=
  ((inKeyOrder_of_ofText? read).after changes).viewsAgree language

/-- A language in both tables, with a value at the top level that is no setting and
with options that have a key of preparation without a value. -/
def mixedText : Text :=
  "\x7b\"stripIndent\": true, \"less\": 5, \"pug\": false, \"transformers\": " ++
    "\x7b\"pug\": true, \"less\": \x7b\"stripIndent\": null\x7d\x7d\x7d"

/-- Changes of the options, of which one takes a setting back. -/
def mixedChanges : List Change :=
  [.prependData "$x: 1;", .transformer "pug" .disabled, .aliasFor "jade" "pug"]

theorem viewsAgree_after_mixedChanges :
    ∃ options, ofText? mixedText = some options ∧
      (options.after mixedChanges).ViewsAgree "less" ∧
      (Table.get? "stripIndent" ((options.after mixedChanges).preparation "less")).map
        Json.isTruthy = some false := by
  have prepared : (ofText? mixedText).map (fun options =>
      (Table.get? "stripIndent" ((options.after mixedChanges).preparation "less")).map
        Json.isTruthy) = some (some false) := by
    decide +kernel
  obtain ⟨options, read, isOff⟩ := Option.map_eq_some_iff.mp prepared
  exact ⟨options, read, viewsAgree_after read mixedChanges "less", isOff⟩

end Options
end ComponentPipeline
