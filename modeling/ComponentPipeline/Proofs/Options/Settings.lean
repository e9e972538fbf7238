import ComponentPipeline.Options.Reader
import Mathlib.Data.Char
import Mathlib.Data.List.Lex

/-!
# The settings of a run

The settings of the languages are written in two tables, and a run looks them up
in one table of both.  Each of the two has its keys in their order, so that the
table of both has for every language the setting that counts: the one under
`transformers`, and the one at the top level only if there is no other.
-/

namespace ComponentPipeline

/-! ## Tables in the order of their keys -/

namespace Table

variable {α β : Type}

/-- The keys of a table increase. -/
def InKeyOrder (table : Table α) : Prop :=
  table.keys.Pairwise (· < ·)

theorem inKeyOrder_nil : InKeyOrder ([] : Table α) := List.Pairwise.nil

theorem InKeyOrder.nodup {table : Table α} (inOrder : table.InKeyOrder) :
    table.keys.Nodup :=
  List.Pairwise.imp ne_of_lt inOrder

theorem mem_keys_putSorted_iff
    {key other : Text}
    {value : α}
    {table : Table α} :
    other ∈ keys (putSorted key value table) ↔ other = key ∨ other ∈ table.keys := by
  induction table with
  | nil => simp [putSorted, keys]
  | cons pair rest ih =>
      obtain ⟨first, old⟩ := pair
      unfold keys at ih ⊢
      rw [putSorted]
      split
      · rename_i same
        subst same
        simp
      · split
        · simp
        · rw [List.map_cons, List.map_cons, List.mem_cons, List.mem_cons, ih]
          exact or_left_comm

theorem InKeyOrder.putSorted
    {table : Table α}
    (inOrder : table.InKeyOrder)
    (key : Text)
    (value : α) :
    InKeyOrder (Table.putSorted key value table) := by
  induction table with
  | nil => exact List.pairwise_singleton _ _
  | cons pair rest ih =>
      obtain ⟨first, old⟩ := pair
      obtain ⟨behindFirst, restInOrder⟩ := List.pairwise_cons.mp inOrder
      rw [Table.putSorted]
      split
      · rename_i same
        subst same
        exact inOrder
      · rename_i other
        split
        · rename_i less
          refine List.pairwise_cons.mpr ⟨fun later member => ?_, inOrder⟩
          rcases List.mem_cons.mp member with rfl | behind
          · exact less
          · exact less.trans (behindFirst later behind)
        · rename_i notLess
          refine List.pairwise_cons.mpr ⟨fun later member => ?_, ih restInOrder⟩
          rcases mem_keys_putSorted_iff.mp member with rfl | behind
          · exact lt_of_le_of_ne (not_lt.mp notLess) (Ne.symm other)
          · exact behindFirst later behind

theorem inKeyOrder_putAllSorted
    {table : Table α}
    (inOrder : table.InKeyOrder)
    (pairs : List (Text × α)) :
    InKeyOrder (putAllSorted pairs table) := by
  induction pairs generalizing table with
  | nil => exact inOrder
  | cons pair rest ih => exact ih (inOrder.putSorted pair.1 pair.2)

theorem get?_eq_none_of_not_mem_keys
    {key : Text}
    {table : Table α}
    (absent : key ∉ table.keys) :
    get? key table = none := by
  induction table with
  | nil => rfl
  | cons pair rest ih =>
      obtain ⟨other, value⟩ := pair
      obtain ⟨notFirst, notLater⟩ := not_or.mp (mt List.mem_cons.mpr absent)
      rw [get?_cons, if_neg notFirst, ih notLater]

/-- Reading after pairs with different keys were written. -/
theorem get?_putAllSorted
    {pairs : Table α}
    (distinct : pairs.keys.Nodup)
    (key : Text)
    (table : Table α) :
    get? key (putAllSorted pairs table) = (get? key pairs).or (get? key table) := by
  induction pairs generalizing table with
  | nil => rfl
  | cons pair rest ih =>
      obtain ⟨other, value⟩ := pair
      obtain ⟨notLater, restDistinct⟩ := List.nodup_cons.mp distinct
      have afterFirst : get? key (putAllSorted ((other, value) :: rest) table) =
          (get? key rest).or (get? key (putSorted other value table)) := ih restDistinct _
      rw [afterFirst, get?_putSorted, get?_cons]
      split
      · rename_i same
        subst same
        rw [get?_eq_none_of_not_mem_keys notLater]
        rfl
      · rfl

/-- Reading the values that a table with different keys has after a change. -/
theorem get?_filterMap
    {table : Table α}
    (distinct : table.keys.Nodup)
    (change : α → Option β)
    (key : Text) :
    get? key (table.filterMap fun (other, value) =>
        (change value).map fun changed => (other, changed)) =
      (get? key table).bind change := by
  induction table with
  | nil => rfl
  | cons pair rest ih =>
      obtain ⟨other, value⟩ := pair
      obtain ⟨notLater, restDistinct⟩ := List.nodup_cons.mp distinct
      rw [get?_cons]
      cases changes : change value with
      | none =>
          rw [List.filterMap_cons_none (by simp [changes]), ih restDistinct]
          split
          · rename_i same
            subst same
            rw [get?_eq_none_of_not_mem_keys notLater, Option.bind_some, changes]
            rfl
          · rfl
      | some changed =>
          rw [List.filterMap_cons_some (by simp [changes]; rfl), get?_cons, ih restDistinct]
          split
          · rw [Option.bind_some, changes]
          · rfl

end Table

/-! ## The tables of options -/

namespace Options

/-- Both tables of settings are in the order of their keys. -/
structure InKeyOrder (options : Options) : Prop where
  /-- The settings under `transformers` are. -/
  transformers : options.transformers.InKeyOrder
  /-- The values at the top level are. -/
  shorthand : options.shorthand.InKeyOrder

theorem inKeyOrder_empty : empty.InKeyOrder :=
  ⟨Table.inKeyOrder_nil, Table.inKeyOrder_nil⟩

theorem InKeyOrder.withTransformer
    {options : Options}
    (inOrder : options.InKeyOrder)
    (language : Text)
    (setting : Setting) :
    (options.withTransformer language setting).InKeyOrder :=
  ⟨inOrder.transformers.putSorted language setting, inOrder.shorthand⟩

theorem inKeyOrder_of_settingsOfJson?
    {value : Json}
    {settings : Table Setting}
    (read : settingsOfJson? value = some settings) :
    settings.InKeyOrder := by
  unfold settingsOfJson? at read
  obtain ⟨members, -, read⟩ := Option.bind_eq_some_iff.mp read
  obtain ⟨pairs, -, read⟩ := Option.bind_eq_some_iff.mp read
  cases read
  exact Table.inKeyOrder_putAllSorted Table.inKeyOrder_nil pairs

/-- Options that are read have their tables in order. -/
theorem inKeyOrder_of_ofMembers?
    {members : List (Text × Json)}
    {options : Options}
    (read : ofMembers? members = some options) :
    options.InKeyOrder := by
  unfold ofMembers? at read
  obtain ⟨-, -, read⟩ := Option.bind_eq_some_iff.mp read
  obtain ⟨stripIndent, -, read⟩ := Option.bind_eq_some_iff.mp read
  obtain ⟨prependData, -, read⟩ := Option.bind_eq_some_iff.mp read
  obtain ⟨aliases, -, read⟩ := Option.bind_eq_some_iff.mp read
  obtain ⟨transformers, transformersRead, read⟩ := Option.bind_eq_some_iff.mp read
  obtain ⟨sourceMap, -, read⟩ := Option.bind_eq_some_iff.mp read
  cases read
  refine ⟨?_, Table.inKeyOrder_putAllSorted Table.inKeyOrder_nil _⟩
  unfold memberOr at transformersRead
  split at transformersRead
  · cases transformersRead
    exact Table.inKeyOrder_nil
  · exact inKeyOrder_of_settingsOfJson? transformersRead

/-- The table of all settings has for a language what counts for it. -/
theorem InKeyOrder.get?_settings
    {options : Options}
    (inOrder : options.InKeyOrder)
    (language : Text) :
    Table.get? language options.settings = options.setting? language := by
  rw [settings, Table.get?_putAllSorted inOrder.transformers.nodup, setting?,
    shorthandSettings, Table.get?_filterMap inOrder.shorthand.nodup]

end Options
end ComponentPipeline
