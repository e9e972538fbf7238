import ComponentPipeline.Text.Basic

/-!
# Searching in a text

A search looks at no more of the text than the pattern is long, so what follows
the first occurrence of a pattern does not count.  A run of characters of one
class ends at the first character that is not in the class.
-/

namespace ComponentPipeline
namespace Text

theorem startsWith_eq_true_iff {pattern text : Text} :
    startsWith pattern text = true ↔ pattern <+: text := by
  rw [startsWith, Option.isSome_iff_exists]
  constructor
  · rintro ⟨rest, found⟩
    exact ⟨rest, (after?_eq_some_iff.mp found).symm⟩
  · rintro ⟨rest, parts⟩
    exact ⟨rest, after?_eq_some_iff.mpr parts.symm⟩

theorem startsWith_eq_false_iff {pattern text : Text} :
    startsWith pattern text = false ↔ ¬pattern <+: text := by
  rw [← startsWith_eq_true_iff, Bool.not_eq_true]

theorem after?_eq_none_iff {pattern text : Text} :
    after? pattern text = none ↔ ¬pattern <+: text := by
  rw [← startsWith_eq_false_iff, startsWith, Option.isSome_eq_false_iff,
    Option.isNone_iff_eq_none]

/-- Whether a text that is long enough starts with a pattern does not depend on
what follows it. -/
theorem isPrefix_append_iff
    {pattern text : Text}
    (long : pattern.length ≤ text.length)
    (rest : Text) :
    pattern <+: text ++ rest ↔ pattern <+: text := by
  constructor
  · intro leads
    exact List.prefix_of_prefix_length_le leads (List.prefix_append text rest) long
  · exact fun leads => leads.trans (List.prefix_append text rest)

@[simp] theorem cutAt?_pattern_append (pattern rest : Text) :
    cutAt? pattern (pattern ++ rest) = some ([], rest) := by
  have found : after? pattern (pattern ++ rest) = some rest :=
    after?_eq_some_iff.mpr rfl
  cases whole : pattern ++ rest with
  | nil =>
      rw [whole] at found
      rw [cutAt?, found]
      rfl
  | cons char others =>
      rw [whole] at found
      rw [cutAt?, found]

theorem cutAt?_cons_eq_some_iff
    {pattern rest head tail : Text}
    {char : Char} :
    cutAt? pattern (char :: rest) = some (char :: head, tail) ↔
      ¬pattern <+: char :: rest ∧ cutAt? pattern rest = some (head, tail) := by
  rw [cutAt?, ← after?_eq_none_iff]
  cases after? pattern (char :: rest) with
  | none => simp
  | some found => simp

/-- A text contains a pattern if the pattern stands somewhere in it. -/
theorem contains_eq_true_iff {pattern text : Text} :
    contains pattern text = true ↔ pattern <:+: text := by
  unfold contains
  induction text with
  | nil =>
      rw [cutAt?, Option.isSome_map, List.infix_nil, ← List.prefix_nil]
      exact startsWith_eq_true_iff
  | cons char rest ih =>
      rw [List.infix_cons_iff, ← ih, ← startsWith_eq_true_iff, startsWith, cutAt?]
      cases after? pattern (char :: rest) with
      | none => simp
      | some found => simp

/-- No occurrence of a pattern lies before the first one. -/
theorem not_infix_of_cutAt?
    {pattern text head tail : Text}
    (notEmpty : pattern ≠ [])
    (found : cutAt? pattern text = some (head, tail)) :
    ¬pattern <:+: head := by
  induction head generalizing text with
  | nil => rwa [List.infix_nil]
  | cons char head ih =>
      obtain ⟨rest, rfl⟩ : ∃ rest, text = char :: rest :=
        ⟨head ++ pattern ++ tail, eq_of_cutAt?_eq_some found⟩
      obtain ⟨notHere, later⟩ := cutAt?_cons_eq_some_iff.mp found
      rw [List.infix_cons_iff, not_or]
      refine ⟨fun here => notHere (here.trans ?_), ih later⟩
      rw [eq_of_cutAt?_eq_some later, List.append_assoc, ← List.cons_append]
      exact List.prefix_append _ _

/-- The first occurrence of a pattern stays the first one whatever follows. -/
theorem cutAt?_append_iff {pattern inside rest : Text} :
    cutAt? pattern (inside ++ pattern ++ rest) = some (inside, rest) ↔
      cutAt? pattern (inside ++ pattern) = some (inside, []) := by
  induction inside with
  | nil =>
      have alone := cutAt?_pattern_append pattern []
      rw [List.append_nil] at alone
      simp [alone]
  | cons char inside ih =>
      have long : pattern.length ≤ (char :: (inside ++ pattern)).length := by
        simp only [List.length_cons, List.length_append]
        omega
      have here := isPrefix_append_iff long rest
      rw [List.cons_append] at here
      simp only [List.cons_append, cutAt?_cons_eq_some_iff, ih, here]

/-! ## Runs of characters -/

section Runs

variable {isInside : Char → Bool} {run rest : Text}

theorem takeWhile_run_append
    (inside : ∀ char ∈ run, isInside char = true)
    (stops : ∀ char ∈ rest.head?, isInside char = false) :
    (run ++ rest).takeWhile isInside = run := by
  rw [List.takeWhile_append_of_pos inside]
  cases rest with
  | nil => simp
  | cons char rest => simp [stops char rfl]

theorem dropWhile_run_append
    (inside : ∀ char ∈ run, isInside char = true)
    (stops : ∀ char ∈ rest.head?, isInside char = false) :
    (run ++ rest).dropWhile isInside = rest := by
  rw [List.dropWhile_append_of_pos inside]
  cases rest with
  | nil => simp
  | cons char rest => simp [stops char rfl]

end Runs

end Text
end ComponentPipeline
