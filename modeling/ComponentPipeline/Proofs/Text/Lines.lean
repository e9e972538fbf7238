import ComponentPipeline.Proofs.Text.Place

/-!
# Where lines start

A line of a text stands between line feeds, and starts at the location with its
number and column zero.
-/

namespace ComponentPipeline

namespace Location

/-- The start of a later line, counted from the start of a line. -/
theorem offsetBy_lineStart (first number : Nat) :
    offsetBy ⟨first, 0⟩ ⟨number, 0⟩ = ⟨first + number, 0⟩ := by
  unfold offsetBy
  split
  · rename_i zero
    simp only at zero
    rw [zero]
    rfl
  · rfl

/-- A text without line feeds stays on its line. -/
theorem advance_of_noFeed
    {text : Text}
    (noFeed : '\n' ∉ text)
    (location : Location) :
    location.advance text = ⟨location.line, location.column + Text.units text⟩ := by
  induction text generalizing location with
  | nil => rfl
  | cons char rest ih =>
      rw [List.mem_cons, not_or] at noFeed
      obtain ⟨different, later⟩ := noFeed
      rw [advance_cons, ih later, step, if_neg (Ne.symm different), Text.units_cons,
        Nat.add_assoc]

end Location

namespace Text

theorem ofLines_lines (text : Text) : ofLines (lines text) = text :=
  List.intercalate_splitOn '\n'

/-- Lines without line feeds are the lines of the text that they are put together
to. -/
theorem lines_ofLines
    {texts : List Text}
    (noFeed : ∀ line ∈ texts, '\n' ∉ line)
    (notEmpty : texts ≠ []) :
    lines (ofLines texts) = texts :=
  List.splitOn_intercalate '\n' noFeed notEmpty

/-- A line feed takes the lines of a text apart. -/
theorem lines_append_feed (first second : Text) :
    lines (first ++ '\n' :: second) = lines first ++ lines second :=
  List.splitOn_append_cons_self first second

/-- A text has one more line than line feeds. -/
theorem length_lines (text : Text) : (lines text).length = text.count '\n' + 1 := by
  unfold lines
  induction text with
  | nil => rfl
  | cons char rest ih =>
      rw [List.splitOn_cons_eq_if_modifyHead, List.count_cons]
      split
      · rw [List.length_cons, ih]
      · rw [List.length_modifyHead, ih, Nat.add_zero]

/-- The pieces between separators have no separator in them. -/
theorem separator_not_mem_of_mem_splitOn
    {separator : Char}
    {text piece : Text}
    (member : piece ∈ text.splitOn separator) :
    separator ∉ piece := by
  induction text generalizing piece with
  | nil =>
      rw [List.mem_singleton.mp member]
      exact List.not_mem_nil
  | cons char rest ih =>
      rw [List.splitOn_cons_eq_if_modifyHead] at member
      split at member
      · rcases List.mem_cons.mp member with same | later
        · rw [same]
          exact List.not_mem_nil
        · exact ih later
      · rename_i different
        cases split : rest.splitOn separator with
        | nil => exact absurd split (List.splitOn_ne_nil separator rest)
        | cons first others =>
            rw [split] at ih
            rw [split, List.modifyHead_cons] at member
            rcases List.mem_cons.mp member with same | later
            · have apart : separator ≠ char := by
                intro same
                exact different (beq_iff_eq.mpr same.symm)
              rw [same, List.mem_cons, not_or]
              exact ⟨apart, ih List.mem_cons_self⟩
            · exact ih (List.mem_cons_of_mem _ later)

theorem noFeed_of_mem_lines
    {text line : Text}
    (member : line ∈ lines text) :
    '\n' ∉ line :=
  separator_not_mem_of_mem_splitOn member

theorem ofLines_cons_cons (first second : Text) (rest : List Text) :
    ofLines (first :: second :: rest) = first ++ '\n' :: ofLines (second :: rest) := by
  unfold ofLines
  rw [List.intercalate_cons_cons, List.append_assoc]
  rfl

/-- A line stands in its text at the start of its number, with a line feed after
it unless it is the last one. -/
theorem goesOn_of_line
    {lines : List Text}
    (noFeed : ∀ line ∈ lines, '\n' ∉ line)
    {number : Nat}
    {line : Text}
    (listed : lines[number]? = some line) :
    ∃ after,
      (ofLines lines).GoesOn ⟨number, 0⟩ (line ++ after) ∧
        after.head? = if number + 1 = lines.length then none else some '\n' := by
  induction lines generalizing number with
  | nil => cases listed
  | cons first rest ih =>
      cases rest with
      | nil =>
          cases number with
          | succ number => cases listed
          | zero =>
              cases listed
              refine ⟨[], ?_, rfl⟩
              rw [ofLines, List.intercalate_singleton, List.append_nil]
              exact GoesOn.start line
      | cons second others =>
          rw [ofLines_cons_cons]
          cases number with
          | zero =>
              cases listed
              exact ⟨'\n' :: ofLines (second :: others), GoesOn.start _, by simp⟩
          | succ number =>
              have ownNoFeed : '\n' ∉ first := noFeed first List.mem_cons_self
              have otherNoFeed : ∀ line ∈ second :: others, '\n' ∉ line :=
                fun line member => noFeed line (List.mem_cons_of_mem _ member)
              obtain ⟨after, goesOn, next⟩ := ih otherNoFeed listed
              refine ⟨after, ?_, ?_⟩
              · have secondStart :
                    Location.origin.advance (first ++ ['\n']) = ⟨1, 0⟩ := by
                  rw [Location.advance_append, Location.advance_of_noFeed ownNoFeed]
                  rfl
                have further := goesOn.append_left (first ++ ['\n'])
                rw [secondStart, Location.offsetBy_lineStart, Nat.add_comm,
                  List.append_assoc] at further
                exact further
              · rw [next]
                simp

/-- A line of a text stands at the start of its number. -/
theorem goesOn_of_mem_lines
    {text line : Text}
    {number : Nat}
    (listed : (lines text)[number]? = some line) :
    ∃ after,
      text.GoesOn ⟨number, 0⟩ (line ++ after) ∧
        after.head? = if number + 1 = (lines text).length then none else some '\n' := by
  have stands := goesOn_of_line (fun line member => noFeed_of_mem_lines member) listed
  rw [ofLines_lines] at stands
  exact stands

/-- A file reader counts a line of a text, and the last one only if it is not
empty. -/
theorem exists_line_of_lt_fileLines
    {text : Text}
    {number : Nat}
    (counted : number < (fileLines text).length) :
    ∃ line, (lines text)[number]? = some line ∧
      (number + 1 = (lines text).length → line ≠ []) := by
  have notEmpty : lines text ≠ [] := List.splitOn_ne_nil '\n' text
  obtain ⟨ended, last, split⟩ : ∃ ended last, lines text = ended ++ [last] :=
    ⟨_, _, (List.dropLast_concat_getLast notEmpty).symm⟩
  rw [fileLines, split] at counted
  simp only [List.getLast?_concat, List.dropLast_concat] at counted
  rw [split, List.length_append, List.length_singleton]
  by_cases beforeLast : number < ended.length
  · refine ⟨ended[number], ?_, ?_⟩
    · rw [List.getElem?_append_left beforeLast]
      exact List.getElem?_eq_getElem beforeLast
    · intro isLast
      omega
  · cases last with
    | nil =>
        rw [List.length_map] at counted
        exact absurd counted beforeLast
    | cons char rest =>
        rw [List.length_append, List.length_map, List.length_singleton] at counted
        have isLast : number = ended.length := by omega
        refine ⟨char :: rest, ?_, fun _ => List.cons_ne_nil char rest⟩
        rw [isLast, List.getElem?_concat_length]

/-- Every line that a file reader counts starts with a character or a line
feed. -/
theorem exists_goesOn_of_lt_fileLines
    {text : Text}
    {number : Nat}
    (counted : number < (fileLines text).length) :
    ∃ char rest, text.GoesOn ⟨number, 0⟩ (char :: rest) := by
  obtain ⟨line, listed, notEmptyLast⟩ := exists_line_of_lt_fileLines counted
  obtain ⟨after, goesOn, next⟩ := goesOn_of_mem_lines listed
  cases line with
  | cons char rest => exact ⟨char, rest ++ after, goesOn⟩
  | nil =>
      have notLast : number + 1 ≠ (lines text).length :=
        fun last => notEmptyLast last rfl
      rw [if_neg notLast] at next
      obtain ⟨rest, rfl⟩ := List.head?_eq_some_iff.mp next
      exact ⟨'\n', rest, goesOn⟩

end Text
end ComponentPipeline
