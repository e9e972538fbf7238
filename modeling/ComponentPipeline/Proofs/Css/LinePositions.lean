import ComponentPipeline.Css.LineIndex
import ComponentPipeline.Proofs.Text.Cutting
import ComponentPipeline.Proofs.Text.Lines
import Mathlib.Data.List.Induction

/-!
# The index of lines gives locations

Looking an offset up in the index of lines gives the same location as reading
the text before it.  The lines that start at or before the offset are those of
the text before it, and the last of them starts where the last line feed of
that text ends.
-/

namespace ComponentPipeline

/-- A text is its whole lines, each with its line feed, and a last line. -/
theorem Text.exists_lastLine (text : Text) :
    ∃ ended last, text = ended ++ last ∧ '\n' ∉ last ∧
      (ended = [] ∨ ∃ before, ended = before ++ ['\n']) := by
  induction text using List.reverseRecOn with
  | nil => exact ⟨[], [], rfl, List.not_mem_nil, .inl rfl⟩
  | append_singleton before char ih =>
      by_cases feed : char = '\n'
      · subst feed
        exact ⟨before ++ ['\n'], [], (List.append_nil _).symm, List.not_mem_nil,
          .inr ⟨before, rfl⟩⟩
      · obtain ⟨ended, last, rfl, noFeed, lineEnd⟩ := ih
        refine ⟨ended, last ++ [char], List.append_assoc _ _ _, ?_, lineEnd⟩
        rw [List.mem_append, not_or, List.mem_singleton]
        exact ⟨noFeed, Ne.symm feed⟩

namespace Css

/-! ## Line starts of a text put together from two -/

theorem laterLineStarts_append (offset : Nat) (first second : Text) :
    laterLineStarts offset (first ++ second) =
      laterLineStarts offset first ++
        laterLineStarts (offset + Text.size first) second := by
  induction first generalizing offset with
  | nil => rfl
  | cons char rest ih =>
      simp only [List.cons_append, laterLineStarts, ih, Text.size_cons, Nat.add_assoc]
      split <;> rfl

theorem laterLineStarts_of_noFeed
    {text : Text}
    (noFeed : '\n' ∉ text)
    (offset : Nat) :
    laterLineStarts offset text = [] := by
  induction text generalizing offset with
  | nil => rfl
  | cons char rest ih =>
      rw [List.mem_cons, not_or] at noFeed
      rw [laterLineStarts, if_neg (Ne.symm noFeed.1), ih noFeed.2]

/-- Every line but the first one starts behind a line feed. -/
theorem exists_of_mem_laterLineStarts
    {text : Text}
    {offset start : Nat}
    (listed : start ∈ laterLineStarts offset text) :
    ∃ before after, text = before ++ '\n' :: after ∧
      start = offset + Text.size before + 1 := by
  induction text generalizing offset with
  | nil => cases listed
  | cons char rest ih =>
      have further (later : start ∈ laterLineStarts (offset + char.utf8Size) rest) :
          ∃ before after, char :: rest = before ++ '\n' :: after ∧
            start = offset + Text.size before + 1 := by
        obtain ⟨before, after, rfl, rfl⟩ := ih later
        exact ⟨char :: before, after, rfl, by rw [Text.size_cons, Nat.add_assoc offset]⟩
      rw [laterLineStarts] at listed
      split at listed
      · rename_i feed
        subst feed
        rcases List.mem_cons.mp listed with rfl | later
        · exact ⟨[], rest, rfl, rfl⟩
        · exact further later
      · exact further listed

/-- The lines that start at or before an offset are those of the text that is
taken up to there. -/
theorem takeWhile_lineStarts (text : Text) (offset : Nat) :
    (lineStarts text).takeWhile (fun start => start ≤ offset) =
      lineStarts (Text.takeBytes offset text) := by
  have own : ∀ start ∈ lineStarts (Text.takeBytes offset text),
      decide (start ≤ offset) = true := by
    intro start listed
    rcases List.mem_cons.mp listed with rfl | later
    · exact decide_eq_true (Nat.zero_le _)
    · obtain ⟨before, after, taken, rfl⟩ := exists_of_mem_laterLineStarts later
      have bound := Text.size_lt_of_takeBytes_eq taken
      exact decide_eq_true (by omega)
  have further :
      (laterLineStarts (Text.size (Text.takeBytes offset text))
        (Text.dropBytes offset text)).takeWhile (fun start => decide (start ≤ offset)) = [] := by
    cases starts : laterLineStarts _ (Text.dropBytes offset text) with
    | nil => rfl
    | cons start rest =>
        obtain ⟨before, after, left, rfl⟩ :=
          exists_of_mem_laterLineStarts (starts ▸ List.mem_cons_self)
        have notEmpty : Text.dropBytes offset text ≠ [] := by simp [left]
        have bound := Text.le_size_takeBytes notEmpty
        refine List.takeWhile_cons_of_neg ?_
        rw [decide_eq_true_iff]
        omega
  have parts : lineStarts text = lineStarts (Text.takeBytes offset text) ++
      laterLineStarts (Text.size (Text.takeBytes offset text)) (Text.dropBytes offset text) := by
    conv_lhs => rw [← Text.takeBytes_append_dropBytes offset text]
    rw [lineStarts, laterLineStarts_append, Nat.zero_add]
    rfl
  rw [parts, List.takeWhile_append_of_pos own, further, List.append_nil]

/-! ## The last line -/

/-- Reading a text leads on by as many lines as start in it. -/
theorem line_advance_eq (location : Location) (offset : Nat) (text : Text) :
    (location.advance text).line =
      location.line + (laterLineStarts offset text).length := by
  induction text generalizing location offset with
  | nil => rfl
  | cons char rest ih =>
      rw [Location.advance_cons, ih _ (offset + char.utf8Size), laterLineStarts,
        Location.step]
      split
      · simp only [List.length_cons]
        omega
      · rfl

/-- After whole lines, the last line starts at their end. -/
theorem getLast?_lineStarts
    {ended : Text}
    (lineEnd : ended = [] ∨ ∃ before, ended = before ++ ['\n']) :
    (lineStarts ended).getLast? = some (Text.size ended) := by
  rcases lineEnd with rfl | ⟨before, rfl⟩
  · rfl
  · have last : laterLineStarts (0 + Text.size before) ['\n'] =
        [Text.size (before ++ ['\n'])] := by
      rw [Nat.zero_add, Text.size_append]
      rfl
    rw [lineStarts, laterLineStarts_append, last, ← List.cons_append,
      List.getLast?_concat]

/-- After whole lines, reading stands at the start of a line. -/
theorem column_advance_of_lineEnd
    {ended : Text}
    (lineEnd : ended = [] ∨ ∃ before, ended = before ++ ['\n']) :
    (Location.origin.advance ended).column = 0 := by
  rcases lineEnd with rfl | ⟨before, rfl⟩
  · rfl
  · rw [Location.advance_append]
    rfl

/-- Behind whole lines, the text from the start of the last line up to an offset
is what is taken of that line. -/
theorem slice_lastLine
    {text ended last : Text}
    {offset : Nat}
    (parts : Text.takeBytes offset text = ended ++ last)
    (lineEnd : ended = [] ∨ ∃ before, ended = before ++ ['\n']) :
    Text.slice (Text.size ended) offset text = last := by
  have reached : Text.size ended ≤ offset := by
    rcases lineEnd with rfl | ⟨before, rfl⟩
    · exact Nat.zero_le _
    · rw [List.append_assoc, List.singleton_append] at parts
      have bound := Text.size_lt_of_takeBytes_eq parts
      have feed : Text.size ['\n'] = 1 := rfl
      rw [Text.size_append, feed]
      exact bound
  have whole : text = ended ++ (last ++ Text.dropBytes offset text) := by
    rw [← List.append_assoc, ← parts, Text.takeBytes_append_dropBytes]
  have taken : Text.takeBytes (Text.size ended + (offset - Text.size ended)) text =
      ended ++ last := by
    rw [Nat.add_sub_cancel' reached, parts]
  rw [whole, Text.takeBytes_add_append] at taken
  rw [Text.slice, whole, Text.dropBytes_size_append]
  exact List.append_cancel_left taken

/-- The position of an offset is the one that reading the text before it leads
to. -/
theorem positionOf_eq (text : Text) (offset : Nat) :
    positionOf text offset = ⟨Location.ofOffset text offset, offset⟩ := by
  obtain ⟨ended, last, parts, noFeed, lineEnd⟩ :=
    Text.exists_lastLine (Text.takeBytes offset text)
  have starts : lineStarts (ended ++ last) = lineStarts ended := by
    rw [lineStarts, laterLineStarts_append, laterLineStarts_of_noFeed noFeed,
      List.append_nil]
    rfl
  have counted := takeWhile_lineStarts text offset
  rw [parts, starts] at counted
  have number : (lineStarts ended).length - 1 = (laterLineStarts 0 ended).length := rfl
  have lineStart :
      (lineStarts text).getD (laterLineStarts 0 ended).length 0 = Text.size ended := by
    have inRange : (lineStarts ended).length - 1 < (lineStarts ended).length :=
      Nat.lt_succ_self _
    rw [← List.takeWhile_append_dropWhile (p := fun start => start ≤ offset)
      (l := lineStarts text),
      counted, ← number, List.getD_eq_getElem?_getD,
      List.getElem?_append_left inRange, ← List.getLast?_eq_getElem?,
      getLast?_lineStarts lineEnd]
    rfl
  have line := line_advance_eq Location.origin 0 ended
  have column := column_advance_of_lineEnd lineEnd
  have location : Location.origin.advance (ended ++ last) =
      ⟨(laterLineStarts 0 ended).length, Text.units last⟩ := by
    rw [Location.advance_append, Location.advance_of_noFeed noFeed, line, column,
      Nat.zero_add]
    simp [Location.origin]
  rw [Location.ofOffset, parts, location]
  simp only [positionOf, positionIn, counted, number, lineStart, slice_lastLine parts lineEnd]

/-- The position of an offset at which characters meet. -/
theorem positionOf_append (before after : Text) :
    positionOf (before ++ after) (Text.size before) =
      ⟨Location.origin.advance before, Text.size before⟩ := by
  rw [positionOf_eq, Location.ofOffset_append]

end Css
end ComponentPipeline
