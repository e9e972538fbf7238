import ComponentPipeline.Text.Blank

/-!
# Blanks around a text

A text is the blanks at its start, what trimming leaves, and the blanks at its
end.
-/

namespace ComponentPipeline
namespace Text

theorem trimEnd_append_drop (text : Text) :
    trimEnd text ++ text.drop (trimEnd text).length = text := by
  induction text with
  | nil => rfl
  | cons char rest ih =>
      simp only [trimEnd]
      split
      · rename_i kept
        rw [kept] at ih
        split
        · rfl
        · simp
      · simpa using ih

/-- A text without the blanks at its end does not end with a blank. -/
theorem not_isBlank_of_getLast?_trimEnd
    {text : Text}
    {char : Char}
    (last : (trimEnd text).getLast? = some char) :
    isBlank char = false := by
  induction text with
  | nil => cases last
  | cons first rest ih =>
      rw [trimEnd] at last
      split at last
      · split at last
        · cases last
        · rename_i notBlank
          cases last
          exact Bool.eq_false_iff.mpr notBlank
      · rename_i notEmpty
        rw [List.getLast?_cons_of_ne_nil notEmpty] at last
        exact ih last

/-- Nothing is left of a text exactly if it has nothing but blanks. -/
theorem trimEnd_eq_nil_iff {text : Text} :
    trimEnd text = [] ↔ isBlankText text = true := by
  induction text with
  | nil => exact ⟨fun _ => rfl, fun _ => rfl⟩
  | cons char rest ih =>
      rw [trimEnd]
      cases kept : trimEnd rest with
      | nil =>
          have blank : isBlankText rest = true := ih.mp kept
          have parts : isBlankText (char :: rest) = isBlank char := by
            rw [isBlankText, List.all_cons, ← isBlankText, blank, Bool.and_true]
          rw [parts]
          cases isBlank char <;> simp
      | cons first others =>
          have notBlank : isBlankText rest = false := by
            rw [Bool.eq_false_iff]
            intro blank
            rw [ih.mpr blank] at kept
            cases kept
          have parts : isBlankText (char :: rest) = false := by
            rw [isBlankText, List.all_cons, ← isBlankText, notBlank, Bool.and_false]
          simp [parts]

/-- What is cut off the end of a text is blank. -/
theorem isBlankText_drop_trimEnd (text : Text) :
    isBlankText (text.drop (trimEnd text).length) = true := by
  induction text with
  | nil => rfl
  | cons char rest ih =>
      rw [trimEnd]
      cases kept : trimEnd rest with
      | nil =>
          have blank : isBlankText rest = true := trimEnd_eq_nil_iff.mp kept
          cases isBlankHere : isBlank char with
          | true =>
              have both : isBlankText (char :: rest) = true := by
                rw [isBlankText, List.all_cons, isBlankHere, ← isBlankText, blank]
                rfl
              simpa using both
          | false => simpa using blank
      | cons first others =>
          rw [kept] at ih
          simpa using ih

/-- Blanks at the end of a text do not count. -/
theorem trimEnd_append_of_isBlankText
    {trailing : Text}
    (blank : isBlankText trailing = true)
    (text : Text) :
    trimEnd (text ++ trailing) = trimEnd text := by
  induction text with
  | nil => exact trimEnd_eq_nil_iff.mpr blank
  | cons char rest ih => rw [List.cons_append, trimEnd, ih, trimEnd]

/-- A text that does not end with a blank has nothing to trim there. -/
theorem trimEnd_eq_self
    {text : Text}
    (noBlank : ∀ char, text.getLast? = some char → isBlank char = false) :
    trimEnd text = text := by
  have parts := trimEnd_append_drop text
  have blank := isBlankText_drop_trimEnd text
  cases dropped : text.drop (trimEnd text).length with
  | nil => rwa [dropped, List.append_nil] at parts
  | cons first others =>
      rw [dropped] at parts blank
      have notEmpty : first :: others ≠ [] := List.cons_ne_nil first others
      have last : text.getLast? = some ((first :: others).getLast notEmpty) := by
        rw [← parts, List.getLast?_append, List.getLast?_eq_some_getLast notEmpty]
        rfl
      have blankLast := List.all_eq_true.mp blank _ (List.getLast_mem notEmpty)
      rw [noBlank _ last] at blankLast
      cases blankLast

/-- A text is what trimming leaves with blanks around it. -/
theorem exists_eq_append_trim (text : Text) :
    ∃ leading trailing, text = leading ++ trim text ++ trailing ∧
      isBlankText leading = true ∧ isBlankText trailing = true := by
  refine ⟨text.takeWhile isBlank, (trimStart text).drop (trim text).length, ?_, ?_, ?_⟩
  · rw [List.append_assoc, trim, trimEnd_append_drop, trimStart,
      List.takeWhile_append_dropWhile]
  · exact List.all_takeWhile
  · exact isBlankText_drop_trimEnd (trimStart text)

/-- Trimming takes away nothing but blanks. -/
theorem mem_trim
    {text : Text}
    {char : Char}
    (noBlank : isBlank char = false)
    (member : char ∈ text) :
    char ∈ trim text := by
  obtain ⟨leading, trailing, parts, blankBefore, blankAfter⟩ := exists_eq_append_trim text
  have notIn (blanks : Text) (blank : isBlankText blanks = true) : char ∉ blanks := by
    intro inside
    rw [List.all_eq_true.mp blank char inside] at noBlank
    cases noBlank
  rw [parts, List.mem_append, List.mem_append] at member
  obtain (before | inside) | after := member
  · exact absurd before (notIn leading blankBefore)
  · exact inside
  · exact absurd after (notIn trailing blankAfter)

/-- Trimming leaves no blank at the start. -/
theorem not_isBlank_of_head?_trim
    {text : Text}
    {char : Char}
    (first : (trim text).head? = some char) :
    isBlank char = false := by
  have notBlank := List.head?_dropWhile_not isBlank text
  rw [trim, trimStart] at first
  cases left : text.dropWhile isBlank with
  | nil =>
      rw [left] at first
      cases first
  | cons start rest =>
      rw [left] at first notBlank
      have notBlank : isBlank start = false := notBlank
      rw [trimEnd] at first
      split at first
      · rw [notBlank] at first
        cases first
        exact notBlank
      · cases first
        exact notBlank

/-- A text without blanks at its ends is its own trimming. -/
theorem trim_eq_self
    {text : Text}
    (noBlankFirst : ∀ char, text.head? = some char → isBlank char = false)
    (noBlankLast : ∀ char, text.getLast? = some char → isBlank char = false) :
    trim text = text := by
  have start : trimStart text = text := by
    cases text with
    | nil => rfl
    | cons char rest =>
        rw [trimStart, List.dropWhile_cons, noBlankFirst char rfl, if_neg Bool.false_ne_true]
  rw [trim, start, trimEnd_eq_self noBlankLast]

@[simp] theorem trim_trim (text : Text) : trim (trim text) = trim text :=
  trim_eq_self (fun _ => not_isBlank_of_head?_trim) fun _ => not_isBlank_of_getLast?_trimEnd

end Text
end ComponentPipeline
