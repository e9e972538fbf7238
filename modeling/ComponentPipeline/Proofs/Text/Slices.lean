import ComponentPipeline.Proofs.Text.Cutting

/-!
# Slices between characters

A text may be sliced only where its characters meet: at a byte offset at which a
character starts, or at the end.  A slice that is checked for this gives nothing
at any other offset, and also if its end lies before its start.
-/

namespace ComponentPipeline
namespace Text

/-- An offset at which a character of a text starts, or the text ends. -/
def IsBoundary (text : Text) (offset : Nat) : Prop :=
  ∃ before after, text = before ++ after ∧ offset = size before

theorem isBoundary_size (before after : Text) : (before ++ after).IsBoundary (size before) :=
  ⟨before, after, rfl, rfl⟩

/-- What is taken up to a boundary is as large as its offset. -/
theorem isBoundary_iff {text : Text} {offset : Nat} :
    text.IsBoundary offset ↔ size (takeBytes offset text) = offset := by
  constructor
  · rintro ⟨before, after, rfl, rfl⟩
    rw [takeBytes_size_append]
  · intro taken
    exact ⟨takeBytes offset text, dropBytes offset text,
      (takeBytes_append_dropBytes offset text).symm, taken.symm⟩

instance (text : Text) (offset : Nat) : Decidable (text.IsBoundary offset) :=
  decidable_of_iff _ isBoundary_iff.symm

/-- Behind a beginning of a text, the boundaries are those of the rest. -/
theorem isBoundary_add_append (before rest : Text) (offset : Nat) :
    (before ++ rest).IsBoundary (size before + offset) ↔ rest.IsBoundary offset := by
  rw [isBoundary_iff, isBoundary_iff, takeBytes_add_append, size_append, Nat.add_left_cancel_iff]

/-- An offset past the end takes what the offset of the end takes. -/
theorem takeBytes_min_size (offset : Nat) (text : Text) :
    takeBytes (min offset (size text)) text = takeBytes offset text := by
  rcases Nat.le_total offset (size text) with inside | outside
  · rw [Nat.min_eq_left inside]
  · have whole : takeBytes (size text) text = text := by
      simpa using takeBytes_size_append text []
    have all : takeBytes offset text = text := by
      simpa [Nat.add_sub_cancel' outside, takeBytes]
        using takeBytes_add_append text [] (offset - size text)
    rw [Nat.min_eq_right outside, whole, all]

/-- The text between two offsets; none unless both are boundaries, and in order. -/
def slice? (start stop : Nat) (text : Text) : Option Text :=
  if start ≤ stop ∧ text.IsBoundary start ∧ text.IsBoundary stop then some (slice start stop text)
  else none

/-- A text can be sliced up to its boundaries. -/
theorem slice?_zero (stop : Nat) (text : Text) :
    slice? 0 stop text = if text.IsBoundary stop then some (takeBytes stop text) else none := by
  have starts : text.IsBoundary 0 := ⟨[], text, rfl, rfl⟩
  rw [slice?, slice, dropBytes_zero, Nat.sub_zero]
  simp only [Nat.zero_le, starts, true_and]

/-- A slice is given exactly between the two boundaries that it lies between. -/
theorem slice?_eq_some_iff {start stop : Nat} {text inside : Text} :
    slice? start stop text = some inside ↔
      ∃ before after, text = before ++ inside ++ after ∧ start = size before ∧
        stop = size (before ++ inside) := by
  unfold slice?
  constructor
  · intro sliced
    split at sliced
    · rename_i bounds
      obtain ⟨inOrder, ⟨before, rest, parts, rfl⟩, ⟨upTo, after, whole, rfl⟩⟩ := bounds
      obtain ⟨between, rfl, rfl⟩ := exists_append_of_size_le (parts.symm.trans whole) inOrder
      rw [whole, slice_append] at sliced
      cases sliced
      exact ⟨before, after, whole, rfl, rfl⟩
    · cases sliced
  · rintro ⟨before, after, rfl, rfl, rfl⟩
    have starts : (before ++ inside ++ after).IsBoundary (size before) := by
      rw [List.append_assoc]
      exact isBoundary_size before _
    rw [if_pos ⟨by simp, starts, isBoundary_size _ after⟩, slice_append]

/-- The text behind an offset at which characters meet. -/
theorem slice?_end (before rest : Text) :
    slice? (size before) (size (before ++ rest)) (before ++ rest) = some rest :=
  slice?_eq_some_iff.mpr ⟨before, [], (List.append_nil _).symm, rfl, rfl⟩

end Text
end ComponentPipeline
