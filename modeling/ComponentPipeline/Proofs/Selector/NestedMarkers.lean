import ComponentPipeline.Proofs.Selector.MarkerPlaces

/-!
# Markers in parentheses and brackets

A bare marker is nested if a parenthesis or a bracket is open where it stands.  A
selector has such a marker exactly if it cannot be split.
-/

namespace ComponentPipeline
namespace Selector

/-- A parenthesis or a bracket is open. -/
def MarkerScan.IsInside (scan : MarkerScan) : Prop :=
  0 < scan.depth

/-- A nested marker in a selector or in a selector list. -/
def HasNestedMarker (selector : Text) : Prop :=
  HasMarkerWhere MarkerScan.IsInside .initial selector

/-! ## Splitting fails -/

/-- Going over a marker that stands outside strings opens nothing. -/
theorem MarkerScan.over_marker
    {scan : MarkerScan}
    (may : scan.mayMark = true) :
    (scan.step ':').over marker.tail = scan.stepMarker := by
  obtain ⟨depth, quote, escaped, afterColon⟩ := scan
  obtain ⟨outside, rfl⟩ := mayMark_eq_true_iff.mp may
  cases outside
  rfl

/-- Splitting fails exactly at a nested marker. -/
theorem splitFrom_eq_nested_iff {scan : MarkerScan} {text : Text} :
    splitFrom scan text = .nested ↔ HasMarkerWhere MarkerScan.IsInside scan text := by
  fun_induction splitFrom scan text with
  | case1 scan =>
      have unmarked : ¬HasMarkerWhere MarkerScan.IsInside scan [] := fun nested =>
        not_hasMarkerFrom_nil scan nested.hasMarkerFrom
      simp [unmarked]
  | case2 scan char tail after found deep =>
      rw [hasMarkerWhere_cons_iff]
      simp [found, MarkerScan.IsInside, deep]
  | case3 scan char tail after found flat ih =>
      obtain ⟨may, parts, -⟩ := MarkerScan.markerAt?_eq_some_iff.mp found
      have whole : char :: tail = ':' :: (marker.tail ++ after) := parts
      rw [Marked.consMarker_eq_nested_iff, ih, whole, hasMarkerWhere_cons_iff,
        or_iff_right fun here => flat here.2,
        hasMarkerWhere_append_iff_of_noColon (by decide), MarkerScan.over_marker may]
  | case4 scan char tail absent ih =>
      rw [Marked.consChar_eq_nested_iff, ih, hasMarkerWhere_cons_iff, absent]
      simp

theorem splitOnMarker_eq_nested_iff {selector : Text} :
    splitOnMarker selector = .nested ↔ HasNestedMarker selector :=
  splitFrom_eq_nested_iff

instance (selector : Text) : Decidable (HasNestedMarker selector) :=
  decidable_of_iff (splitOnMarker selector = .nested) splitOnMarker_eq_nested_iff

/-! ## Parts of a text -/

/-- A state in which nothing is open and a marker may start is the first one. -/
theorem MarkerScan.eq_initial_of_mayMark
    {scan : MarkerScan}
    (may : scan.mayMark = true)
    (flat : scan.depth = 0) :
    scan = .initial := by
  obtain ⟨depth, quote, escaped, afterColon⟩ := scan
  obtain ⟨outside, rfl⟩ := mayMark_eq_true_iff.mp may
  cases outside
  cases flat
  rfl

/-- Only brackets change how many are open. -/
theorem MarkerScan.depth_step
    {scan : MarkerScan}
    {char : Char}
    (noBracket : char ∉ ['(', '[', ')', ']']) :
    (scan.step char).depth = scan.depth := by
  simp only [List.mem_cons, List.not_mem_nil, or_false, not_or] at noBracket
  obtain ⟨noOpening, noSquare, noClosing, noSquareEnd⟩ := noBracket
  unfold MarkerScan.step
  dsimp only
  repeat' split
  all_goals first | rfl | simp_all

theorem MarkerScan.over_initial_of_isBlankText
    {text : Text}
    (blank : Text.isBlankText text = true) :
    MarkerScan.initial.over text = .initial := by
  induction text with
  | nil => rfl
  | cons char rest ih =>
      obtain ⟨blankHere, blankRest⟩ := Bool.and_eq_true_iff.mp blank
      have noBracket : char ∉ ['(', '[', ')', ']'] := by
        simp only [List.mem_cons, List.not_mem_nil, or_false]
        rintro (rfl | rfl | rfl | rfl) <;> exact absurd blankHere (by decide)
      have may : (initial.step char).mayMark = true :=
        (separates_of_isBlank blankHere).mayMark_step rfl
      rw [over_cons, eq_initial_of_mayMark may (depth_step noBracket)]
      exact ih blankRest

/-- The blanks around a text do not count. -/
theorem hasNestedMarker_trim_iff {text : Text} :
    HasNestedMarker (Text.trim text) ↔ HasNestedMarker text := by
  obtain ⟨leading, trailing, parts, blankBefore, blankAfter⟩ := Text.exists_eq_append_trim text
  generalize Text.trim text = kept at parts
  have noColon : ':' ∉ leading := fun member =>
    absurd (List.all_eq_true.mp blankBefore ':' member) (by decide)
  rw [parts, HasNestedMarker, HasNestedMarker,
    hasMarkerWhere_append_iff_of_isBlankText blankAfter,
    hasMarkerWhere_append_iff_of_noColon noColon,
    MarkerScan.over_initial_of_isBlankText blankBefore]

end Selector
end ComponentPipeline
