import ComponentPipeline.Table
import Mathlib.Data.List.Induction

/-!
# Tables of pairs written one after another

Of the pairs for one key the last one holds.  Pairs with different keys make a
table as they are.
-/

namespace ComponentPipeline
namespace Table

variable {α : Type}

/-- The last of the pairs for a key gives it a value. -/
def IsLast (pairs : List (Text × α)) (key : Text) (value : α) : Prop :=
  ∃ before after, pairs = before ++ (key, value) :: after ∧ key ∉ keys after

theorem not_isLast_nil {key : Text} {value : α} : ¬IsLast [] key value := by
  rintro ⟨before, after, parts, -⟩
  simp at parts

/-- One more pair holds for its own key and changes nothing for the others. -/
theorem isLast_concat_iff
    {pairs : List (Text × α)}
    {other key : Text}
    {new value : α} :
    IsLast (pairs ++ [(other, new)]) key value ↔
      if key = other then new = value else IsLast pairs key value := by
  constructor
  · rintro ⟨before, after, parts, notLater⟩
    rcases List.eq_nil_or_concat after with rfl | ⟨front, last, rfl⟩
    · obtain ⟨-, same⟩ := List.append_inj' parts rfl
      obtain ⟨rfl, rfl⟩ := Prod.mk.inj (List.singleton_inj.mp same)
      rw [if_pos rfl]
    · rw [List.concat_eq_append] at parts notLater
      rw [← List.cons_append, ← List.append_assoc] at parts
      obtain ⟨earlier, same⟩ := List.append_inj' parts rfl
      obtain rfl := List.singleton_inj.mp same
      rw [keys, List.map_append, List.mem_append, not_or] at notLater
      rw [if_neg fun same => notLater.2 (by simp [same])]
      exact ⟨before, front, earlier, notLater.1⟩
  · intro holds
    split at holds
    · rename_i same
      subst same holds
      exact ⟨pairs, [], rfl, List.not_mem_nil⟩
    · rename_i different
      obtain ⟨before, after, rfl, notLater⟩ := holds
      refine ⟨before, after ++ [(other, new)], by simp, ?_⟩
      rw [keys, List.map_append, List.mem_append, not_or]
      exact ⟨notLater, by simpa using different⟩

/-- Reading after pairs were written into an empty table. -/
theorem get?_putAll_nil_eq_some_iff
    {pairs : List (Text × α)}
    {key : Text}
    {value : α} :
    get? key (putAll pairs []) = some value ↔ IsLast pairs key value := by
  -- From the end, where the pair is that overrules the others.
  induction pairs using List.reverseRecOn with
  | nil => simp [putAll, not_isLast_nil]
  | append_singleton pairs pair ih =>
      obtain ⟨other, new⟩ := pair
      have written : putAll (pairs ++ [(other, new)]) [] = put other new (putAll pairs []) := by
        simp [putAll]
      rw [written, get?_put, isLast_concat_iff]
      split
      · simp
      · exact ih

theorem get?_putAll_nil_eq_none_iff
    {pairs : List (Text × α)}
    {key : Text} :
    get? key (putAll pairs []) = none ↔ ∀ value, ¬IsLast pairs key value := by
  simp only [← get?_putAll_nil_eq_some_iff, Option.eq_none_iff_forall_ne_some, ne_eq]

/-- Every key of the pairs has a last one. -/
theorem exists_isLast_of_mem_keys
    {pairs : List (Text × α)}
    {key : Text}
    (member : key ∈ keys pairs) :
    ∃ value, IsLast pairs key value := by
  induction pairs using List.reverseRecOn with
  | nil => cases member
  | append_singleton pairs pair ih =>
      obtain ⟨other, new⟩ := pair
      by_cases same : key = other
      · exact ⟨new, isLast_concat_iff.mpr (by rw [if_pos same])⟩
      · have earlier : key ∈ keys pairs := by
          simpa [keys, same] using member
        obtain ⟨value, isLast⟩ := ih earlier
        exact ⟨value, isLast_concat_iff.mpr (by rwa [if_neg same])⟩

theorem IsLast.mem
    {pairs : List (Text × α)}
    {key : Text}
    {value : α}
    (isLast : IsLast pairs key value) :
    (key, value) ∈ pairs := by
  obtain ⟨before, after, rfl, -⟩ := isLast
  simp

/-! ## Pairs with different keys -/

theorem put_of_not_mem_keys
    {key : Text}
    {table : Table α}
    (absent : key ∉ table.keys)
    (value : α) :
    put key value table = table ++ [(key, value)] := by
  induction table with
  | nil => rfl
  | cons pair rest ih =>
      obtain ⟨other, old⟩ := pair
      obtain ⟨notFirst, notLater⟩ := not_or.mp (mt List.mem_cons.mpr absent)
      rw [put, if_neg notFirst, ih notLater, List.cons_append]

/-- Pairs with new and different keys are written behind the table. -/
theorem putAll_eq_append
    {table pairs : Table α}
    (distinct : (table ++ pairs).keys.Nodup) :
    putAll pairs table = table ++ pairs := by
  induction pairs generalizing table with
  | nil => simp [putAll]
  | cons pair rest ih =>
      obtain ⟨key, value⟩ := pair
      have absent : key ∉ table.keys := by
        intro present
        rw [keys, List.map_append, List.map_cons] at distinct
        exact (List.nodup_append.mp distinct).2.2 key present key (by simp) rfl
      have first : putAll ((key, value) :: rest) table =
          putAll rest (table ++ [(key, value)]) := by
        rw [← put_of_not_mem_keys absent value]
        rfl
      have same : table ++ [(key, value)] ++ rest = table ++ (key, value) :: rest := by simp
      rw [first, ih (same ▸ distinct), same]

/-- A table that pairs are written into stands for the first of the pairs. -/
theorem putAll_eq_putAll_nil
    {table : Table α}
    (distinct : table.keys.Nodup)
    (pairs : List (Text × α)) :
    putAll pairs table = putAll (table ++ pairs) [] := by
  have whole : putAll table [] = table := putAll_eq_append distinct
  conv_lhs => rw [← whole]
  exact List.foldl_append.symm

/-- The pairs of a table are what can be read from it. -/
theorem mem_iff_get?_eq_some
    {table : Table α}
    (distinct : table.keys.Nodup)
    {key : Text}
    {value : α} :
    (key, value) ∈ table ↔ get? key table = some value := by
  induction table with
  | nil => simp
  | cons pair rest ih =>
      obtain ⟨other, old⟩ := pair
      obtain ⟨notLater, restDistinct⟩ := List.nodup_cons.mp distinct
      rw [List.mem_cons, ih restDistinct, get?_cons, Prod.mk.injEq]
      split
      · rename_i same
        subst same
        have notRest : get? key rest ≠ some value := by
          intro found
          exact notLater (List.mem_map.mpr ⟨(key, value), (ih restDistinct).mpr found, rfl⟩)
        simp [notRest, eq_comm]
      · rename_i different
        simp [different]

end Table
end ComponentPipeline
