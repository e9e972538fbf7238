import ComponentPipeline.Text.Location

/-!
# Cutting where characters meet

A byte offset at which a character starts, or at which the text ends, is the
size of the text before it.  Cutting a text there takes it apart into the two
texts that it was put together from.
-/

namespace ComponentPipeline
namespace Text

theorem size_eq_zero_iff {text : Text} : size text = 0 ↔ text = [] := by
  cases text with
  | nil => simp
  | cons char rest =>
      have positive := char.utf8Size_pos
      simp only [size_cons, reduceCtorEq, iff_false]
      omega

@[simp] theorem takeBytes_zero (text : Text) : takeBytes 0 text = [] := by
  cases text <;> rfl

@[simp] theorem dropBytes_zero (text : Text) : dropBytes 0 text = text := by
  cases text <;> rfl

theorem takeBytes_size_cons (offset : Nat) (char : Char) (rest : Text) :
    takeBytes (char.utf8Size + offset) (char :: rest) =
      char :: takeBytes offset rest := by
  have positive := char.utf8Size_pos
  obtain ⟨before, same⟩ : ∃ before, char.utf8Size + offset = before + 1 :=
    ⟨char.utf8Size + offset - 1, by omega⟩
  rw [same, takeBytes, ← same, Nat.add_sub_cancel_left]

theorem dropBytes_size_cons (offset : Nat) (char : Char) (rest : Text) :
    dropBytes (char.utf8Size + offset) (char :: rest) = dropBytes offset rest := by
  have positive := char.utf8Size_pos
  obtain ⟨before, same⟩ : ∃ before, char.utf8Size + offset = before + 1 :=
    ⟨char.utf8Size + offset - 1, by omega⟩
  rw [same, dropBytes, ← same, Nat.add_sub_cancel_left]

@[simp] theorem takeBytes_size_append (first second : Text) :
    takeBytes (size first) (first ++ second) = first := by
  induction first with
  | nil => simp
  | cons char rest ih =>
      rw [size_cons, List.cons_append, takeBytes_size_cons, ih]

@[simp] theorem dropBytes_size_append (first second : Text) :
    dropBytes (size first) (first ++ second) = second := by
  induction first with
  | nil => simp
  | cons char rest ih =>
      rw [size_cons, List.cons_append, dropBytes_size_cons, ih]

theorem takeBytes_add_append (first second : Text) (offset : Nat) :
    takeBytes (size first + offset) (first ++ second) = first ++ takeBytes offset second := by
  induction first with
  | nil => rw [size_nil, Nat.zero_add, List.nil_append, List.nil_append]
  | cons char rest ih =>
      rw [size_cons, Nat.add_assoc, List.cons_append, takeBytes_size_cons, ih, List.cons_append]

theorem takeBytes_append_of_le
    {first : Text}
    {offset : Nat}
    (inside : offset ≤ size first)
    (second : Text) :
    takeBytes offset (first ++ second) = takeBytes offset first := by
  induction first generalizing offset with
  | nil =>
      rw [size_nil, Nat.le_zero] at inside
      rw [inside, takeBytes_zero, takeBytes_zero]
  | cons char rest ih =>
      rw [size_cons] at inside
      cases offset with
      | zero => rfl
      | succ offset =>
          have further : takeBytes (offset + 1 - char.utf8Size) (rest ++ second) = _ :=
            ih (by omega)
          rw [List.cons_append, takeBytes, takeBytes, further]

/-- Every character that is taken starts before the offset. -/
theorem size_lt_of_takeBytes_eq
    {text first rest : Text}
    {offset : Nat}
    {char : Char}
    (taken : takeBytes offset text = first ++ char :: rest) :
    size first < offset := by
  induction text generalizing offset first with
  | nil => cases offset <;> simp [takeBytes] at taken
  | cons head tail ih =>
      cases offset with
      | zero => simp [takeBytes] at taken
      | succ offset =>
          cases first with
          | nil => exact Nat.succ_pos offset
          | cons other first =>
              rw [takeBytes, List.cons_append] at taken
              injection taken with same takenRest
              have further := ih takenRest
              rw [size_cons, ← same]
              omega

/-- If a character is left, then what is taken goes up to the offset. -/
theorem le_size_takeBytes
    {text : Text}
    {offset : Nat}
    (left : dropBytes offset text ≠ []) :
    offset ≤ size (takeBytes offset text) := by
  induction text generalizing offset with
  | nil => cases offset <;> exact absurd rfl left
  | cons char rest ih =>
      cases offset with
      | zero => exact Nat.zero_le _
      | succ offset =>
          rw [dropBytes] at left
          have further := ih left
          rw [takeBytes, size_cons]
          omega

/-- The text between two offsets at which characters meet. -/
theorem slice_append (before inside after : Text) :
    slice (size before) (size (before ++ inside)) (before ++ inside ++ after) =
      inside := by
  unfold slice
  rw [List.append_assoc, dropBytes_size_append, size_append,
    Nat.add_sub_cancel_left, takeBytes_size_append]

/-- Of two beginnings of one text, the one that is no larger starts the
other. -/
theorem exists_append_of_size_le
    {first second firstRest secondRest : Text}
    (same : first ++ firstRest = second ++ secondRest)
    (noLarger : size first ≤ size second) :
    ∃ between, second = first ++ between ∧ firstRest = between ++ secondRest := by
  obtain ⟨between, parts⟩ | ⟨extra, first_eq, rest_eq⟩ :=
    List.append_eq_append_iff.mp same
  · exact ⟨between, parts⟩
  · rw [first_eq, size_append] at noLarger
    have empty : extra = [] := size_eq_zero_iff.mp (by omega)
    subst empty
    exact ⟨[], by simpa using first_eq.symm, by simpa using rest_eq.symm⟩

/-- Two beginnings of one text with the same size are the same. -/
theorem append_inj_of_size_eq
    {first second firstRest secondRest : Text}
    (same : first ++ firstRest = second ++ secondRest)
    (sizes : size first = size second) :
    first = second ∧ firstRest = secondRest := by
  obtain ⟨between, rfl, rfl⟩ := exists_append_of_size_le same (Nat.le_of_eq sizes)
  rw [size_append] at sizes
  have empty : between = [] := size_eq_zero_iff.mp (by omega)
  subst empty
  exact ⟨(List.append_nil first).symm, rfl⟩

end Text

/-- The location of an offset at which characters meet. -/
theorem Location.ofOffset_append (before after : Text) :
    Location.ofOffset (before ++ after) (Text.size before) =
      Location.origin.advance before := by
  unfold Location.ofOffset
  rw [Text.takeBytes_size_append]

end ComponentPipeline
