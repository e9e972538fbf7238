import ComponentPipeline.Proofs.Css.ListMarkers

/-!
# Selectors that were set

The selectors of a rule are joined by a separator that is cut out of the list that
the rule had before.  Whatever list that was, the separator is a comma with blanks
behind it.  A selector that leaves nothing open brings the scan to the comma as it
was at the start, so the comma separates, and the blanks go with the next selector
and are trimmed off it.  Reading the selectors gives those that were set.
-/

namespace ComponentPipeline
namespace Css

/-- A selector that can stand in a list. -/
structure Listable (selector : Text) : Prop where
  /-- It is not empty. -/
  notEmpty : selector ≠ []
  /-- There are no blanks around it. -/
  trimmed : Text.trim selector = selector
  /-- No comma of it separates two selectors. -/
  whole : Unseparated .initial selector
  /-- It leaves no string, no parenthesis and no escape open. -/
  closed : ListScan.initial.over selector = .initial

/-! ## Blanks in a list -/

theorem ListScan.step_initial_of_isBlank
    {char : Char}
    (blank : Text.isBlank char = true) :
    ListScan.initial.step char = .initial := by
  have differs (other : Char) (notBlank : Text.isBlank other = false) : char ≠ other := by
    rintro rfl
    rw [notBlank] at blank
    cases blank
  simp [step, initial, differs '\\' (by decide), differs '"' (by decide),
    differs '\'' (by decide), differs '(' (by decide), differs ')' (by decide)]

theorem ListScan.over_initial_of_isBlankText
    {blanks : Text}
    (blank : Text.isBlankText blanks = true) :
    ListScan.initial.over blanks = .initial := by
  induction blanks with
  | nil => rfl
  | cons char rest ih =>
      obtain ⟨blankHere, blankRest⟩ := Bool.and_eq_true_iff.mp blank
      have later : (initial.step char).over rest = .initial := by
        rw [step_initial_of_isBlank blankHere]
        exact ih blankRest
      exact later

theorem unseparated_of_isBlankText
    {blanks : Text}
    (blank : Text.isBlankText blanks = true)
    (scan : ListScan) :
    Unseparated scan blanks := by
  intro before leads
  have comma : ',' ∈ blanks := leads.subset (by simp)
  exact absurd (List.all_eq_true.mp blank ',' comma) (by decide)

theorem trim_append_of_isBlankText
    {blanks : Text}
    (blank : Text.isBlankText blanks = true)
    (text : Text) :
    Text.trim (blanks ++ text) = Text.trim text := by
  rw [Text.trim, Text.trimStart, List.dropWhile_append_of_pos (List.all_eq_true.mp blank)]
  rfl

/-! ## The pieces of a joined list -/

/-- A list that is joined by a comma and blanks has its selectors as pieces, with the
blanks in front of each but the first. -/
theorem listPieces_intercalate
    {blanks first : Text}
    {others : List Text}
    (blank : Text.isBlankText blanks = true)
    (listable : ∀ selector ∈ first :: others, Listable selector) :
    listPieces .initial (List.intercalate (',' :: blanks) (first :: others)) =
      first :: others.map (blanks ++ ·) := by
  obtain ⟨here, later⟩ := List.forall_mem_cons.mp listable
  induction others generalizing first with
  | nil =>
      have alone : listPieces (ListScan.initial.over first) [] = [[]] := rfl
      have pieces := listPieces_append here.whole alone
      rw [List.append_nil] at pieces
      rw [List.intercalate_singleton]
      exact pieces
  | cons second others ih =>
      obtain ⟨next, rest⟩ := List.forall_mem_cons.mp later
      have joined := ih later next rest
      have behindBlanks : listPieces .initial
          (blanks ++ List.intercalate (',' :: blanks) (second :: others)) =
            (blanks ++ second) :: others.map (blanks ++ ·) := by
        apply listPieces_append (unseparated_of_isBlankText blank _)
        rw [ListScan.over_initial_of_isBlankText blank]
        exact joined
      have atComma : listPieces (ListScan.initial.over first)
          (',' :: (blanks ++ List.intercalate (',' :: blanks) (second :: others))) =
            [] :: (blanks ++ second) :: others.map (blanks ++ ·) := by
        rw [here.closed, ← behindBlanks]
        rfl
      have pieces := listPieces_append here.whole atComma
      rw [List.append_nil] at pieces
      rw [List.intercalate_cons_cons, List.append_assoc]
      exact pieces

/-- If no piece of a list is empty, then its selectors are the pieces, trimmed. -/
theorem selectorsOf_eq_map_trim
    {list : Text}
    (notEmpty : ∀ piece ∈ listPieces .initial list, piece ≠ []) :
    selectorsOf list = (listPieces .initial list).map Text.trim := by
  obtain none | ⟨earlier, last, parts⟩ := List.eq_nil_or_concat (listPieces .initial list)
  · exact absurd none (listPieces_ne_nil .initial list)
  · rw [List.concat_eq_append] at parts
    have kept : (earlier.filter fun piece => !piece.isEmpty) = earlier := by
      rw [List.filter_eq_self]
      intro piece member
      rw [parts] at notEmpty
      simpa using notEmpty piece (List.mem_append_left _ member)
    unfold selectorsOf
    dsimp only
    rw [parts, List.dropLast_concat, List.getLast?_concat, kept]
    rfl

/-- After setting the selectors of a rule, its selectors are those that were set. -/
theorem selectors_setSelectors
    (rule : Rule)
    {selectors : List Text}
    (some : selectors ≠ [])
    (listable : ∀ selector ∈ selectors, Listable selector) :
    (rule.setSelectors selectors).selectors = selectors := by
  obtain ⟨first, others, rfl⟩ := List.exists_cons_of_ne_nil some
  obtain ⟨blanks, separator, blank⟩ := exists_separator_eq rule.selector
  have list : (rule.setSelectors (first :: others)).selector =
      List.intercalate (',' :: blanks) (first :: others) := by
    rw [← separator]
    rfl
  have pieces := listPieces_intercalate blank listable
  obtain ⟨here, later⟩ := List.forall_mem_cons.mp listable
  have notEmpty : ∀ piece ∈ first :: others.map (blanks ++ ·), piece ≠ [] := by
    refine List.forall_mem_cons.mpr ⟨here.notEmpty, ?_⟩
    intro piece member
    obtain ⟨selector, isOther, rfl⟩ := List.mem_map.mp member
    exact List.append_ne_nil_of_right_ne_nil _ (later selector isOther).notEmpty
  rw [← pieces] at notEmpty
  rw [Rule.selectors, list, selectorsOf_eq_map_trim notEmpty, pieces, List.map_cons,
    here.trimmed, List.map_map]
  congr 1
  calc others.map (Text.trim ∘ (blanks ++ ·))
    _ = others.map id := by
      apply List.map_congr_left
      intro selector isOther
      exact (trim_append_of_isBlankText blank selector).trans (later selector isOther).trimmed
    _ = others := List.map_id others

/-- Selectors with commas in parentheses, in a string with an open parenthesis, and
behind a backslash. -/
def commaSample : List Text :=
  ["x:is(p, (q,r))", "[y=\"(,\"]", "z\\,w"]

theorem listable_of_mem_commaSample : ∀ selector ∈ commaSample, Listable selector := by
  simp only [commaSample, List.forall_mem_cons]
  refine ⟨?_, ?_, ?_, by simp⟩ <;> exact ⟨by decide, by decide, by decide, by decide⟩

theorem selectors_setSelectors_commaSample :
    commaSample ≠ [] ∧ (∀ selector ∈ commaSample, Listable selector) ∧
      ((Rule.ofSelector "a(b,\"c)\",\"d\") ,\n  e, f").setSelectors commaSample).selector =
        ("x:is(p, (q,r)),\n  [y=\"(,\"],\n  z\\,w" : String) ∧
      ((Rule.ofSelector "a(b,\"c)\",\"d\") ,\n  e, f").setSelectors commaSample).selectors =
        commaSample :=
  ⟨by decide, listable_of_mem_commaSample, by decide +kernel,
    selectors_setSelectors _ (by decide) listable_of_mem_commaSample⟩

end Css
end ComponentPipeline
