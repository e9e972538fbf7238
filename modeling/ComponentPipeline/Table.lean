import ComponentPipeline.Text.Basic

/-!
# Tables with text keys

A table is a list of key-value pairs in which every key occurs once.  Writing
a key that is there already replaces its value in place.  A new key goes to
the end under `put` and to its place in the order of code points under
`putSorted`.
-/

namespace ComponentPipeline

/-- Key-value pairs, one for each key. -/
abbrev Table (α : Type) := List (Text × α)

namespace Table

variable {α : Type}

/-- The value of a key. -/
def get? (key : Text) (table : Table α) : Option α :=
  table.lookup key

/-- The keys, in the order of the table. -/
def keys (table : Table α) : List Text :=
  table.map Prod.fst

/-- Writes a value; a new key goes to the end. -/
def put (key : Text) (value : α) : Table α → Table α
  | [] => [(key, value)]
  | (other, old) :: rest =>
      if key = other then (key, value) :: rest
      else (other, old) :: put key value rest

/-- Writes a value; a new key goes before the first greater key. -/
def putSorted (key : Text) (value : α) : Table α → Table α
  | [] => [(key, value)]
  | (other, old) :: rest =>
      if key = other then (key, value) :: rest
      else if key < other then (key, value) :: (other, old) :: rest
      else (other, old) :: putSorted key value rest

/-- Writes pairs one after another with `put`. -/
def putAll (pairs : List (Text × α)) (table : Table α) : Table α :=
  pairs.foldl (fun written (key, value) => put key value written) table

/-- Writes pairs one after another with `putSorted`. -/
def putAllSorted (pairs : List (Text × α)) (table : Table α) : Table α :=
  pairs.foldl (fun written (key, value) => putSorted key value written) table

@[simp] theorem get?_nil (key : Text) : get? key ([] : Table α) = none := rfl

theorem get?_cons
    (key other : Text)
    (value : α)
    (rest : Table α) :
    get? key ((other, value) :: rest) =
      if key = other then some value else get? key rest := by
  rw [get?, get?, List.lookup_cons]
  by_cases same : key = other
  · simp [same]
  · simp [beq_eq_false_iff_ne.mpr same, same]

/-- Reading after a write. -/
theorem get?_put
    (key asked : Text)
    (value : α)
    (table : Table α) :
    get? asked (put key value table) =
      if asked = key then some value else get? asked table := by
  induction table with
  | nil => simp [put, get?_cons]
  | cons pair rest ih =>
      obtain ⟨other, old⟩ := pair
      by_cases same : key = other
      · subst same
        by_cases hit : asked = key <;> simp [put, get?_cons, hit]
      · by_cases hit : asked = other
        · subst hit
          simp [put, get?_cons, same, Ne.symm same]
        · simp [put, get?_cons, same, hit, ih]

/-- Reading after a write in order. -/
theorem get?_putSorted
    (key asked : Text)
    (value : α)
    (table : Table α) :
    get? asked (putSorted key value table) =
      if asked = key then some value else get? asked table := by
  induction table with
  | nil => simp [putSorted, get?_cons]
  | cons pair rest ih =>
      obtain ⟨other, old⟩ := pair
      by_cases same : key = other
      · subst same
        by_cases hit : asked = key <;> simp [putSorted, get?_cons, hit]
      · by_cases less : key < other
        · simp [putSorted, get?_cons, same, less]
        · by_cases hit : asked = other
          · subst hit
            simp [putSorted, get?_cons, same, less, Ne.symm same]
          · simp [putSorted, get?_cons, same, less, hit, ih]

end Table
end ComponentPipeline
