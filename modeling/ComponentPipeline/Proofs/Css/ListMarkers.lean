import ComponentPipeline.Css.SelectorList
import ComponentPipeline.Proofs.Selector.MarkerPlaces

/-!
# Bare markers in selector lists

A selector list has a bare marker exactly if one of its selectors has one.  The
scan that splits a list and the scan that looks for markers agree on strings and
escapes, and a marker has no comma in it.
-/

namespace ComponentPipeline
namespace Css

open Selector (HasMarker HasMarkerFrom MarkerScan Quoting Separates)

/-- The string that is open and whether the next character is escaped. -/
def ListScan.quoting (scan : ListScan) : Quoting := ⟨scan.quote, scan.escaped⟩

theorem ListScan.quoting_step (scan : ListScan) (char : Char) :
    (scan.step char).quoting = scan.quoting.step char := by
  obtain ⟨depth, quote, escaped⟩ := scan
  unfold ListScan.step Quoting.step quoting
  dsimp only
  cases escaped with
  | true => rfl
  | false =>
      by_cases backslash : char = '\\'
      · simp [backslash]
      · cases quote with
        | some quote =>
            by_cases closes : char = quote
            · simp only [Bool.false_eq_true, if_false, if_neg backslash, if_pos closes]
            · simp only [Bool.false_eq_true, if_false, if_neg backslash, if_neg closes]
        | none =>
            by_cases opens : char = '"' ∨ char = '\''
            · simp [backslash, opens]
            · by_cases deeper : char = '('
              · simp [deeper]
              · by_cases shallower : char = ')' <;>
                  simp [backslash, opens, deeper, shallower]

/-- The state of a scan that has gone over a text. -/
def ListScan.over (scan : ListScan) (text : Text) : ListScan :=
  text.foldl ListScan.step scan

theorem ListScan.quoting_over (scan : ListScan) (text : Text) :
    (scan.over text).quoting = scan.quoting.over text := by
  induction text generalizing scan with
  | nil => rfl
  | cons char rest ih =>
      have later := ih (scan.step char)
      rw [quoting_step] at later
      exact later

theorem ListScan.quoting_of_separatesAt
    {scan : ListScan}
    {char : Char}
    (separates : scan.separatesAt char = true) :
    scan.quoting = .outside ∧ char = ',' := by
  obtain ⟨depth, quote, escaped⟩ := scan
  simp only [separatesAt, Bool.and_eq_true, Bool.not_eq_true', Option.isNone_iff_eq_none,
    beq_iff_eq] at separates
  obtain ⟨⟨⟨rfl, rfl⟩, -⟩, rfl⟩ := separates
  exact ⟨rfl, rfl⟩

/-- A list is one piece, or a piece before its first separator and the pieces
after that. -/
theorem listPieces_cases (scan : ListScan) (text : Text) :
    listPieces scan text = [text] ∨
      ∃ piece rest, text = piece ++ ',' :: rest ∧ (scan.over piece).separatesAt ',' = true ∧
        listPieces scan text = piece :: listPieces (scan.over piece) rest := by
  induction text generalizing scan with
  | nil => exact .inl rfl
  | cons char rest ih =>
      rw [listPieces]
      split
      · rename_i separates
        obtain ⟨-, rfl⟩ := ListScan.quoting_of_separatesAt separates
        exact .inr ⟨[], rest, rfl, separates, rfl⟩
      · obtain whole | ⟨piece, others, rfl, separates, pieces⟩ := ih (scan.step char)
        · rw [whole]
          exact .inl rfl
        · rw [pieces]
          exact .inr ⟨char :: piece, others, rfl, separates, rfl⟩

theorem separates_comma : Separates ',' :=
  Selector.separates_of_continuesCombinator (by decide)

theorem listPieces_ne_nil (scan : ListScan) (text : Text) : listPieces scan text ≠ [] := by
  obtain whole | ⟨piece, rest, -, -, split⟩ := listPieces_cases scan text
  · rw [whole]
    exact List.cons_ne_nil _ _
  · rw [split]
    exact List.cons_ne_nil _ _

/-- No comma of a text separates two selectors. -/
def Unseparated (scan : ListScan) (text : Text) : Prop :=
  ∀ before, before ++ [','] <+: text → (scan.over before).separatesAt ',' = false

theorem unseparated_cons_iff {scan : ListScan} {char : Char} {text : Text} :
    Unseparated scan (char :: text) ↔
      scan.separatesAt char = false ∧ Unseparated (scan.step char) text := by
  constructor
  · intro whole
    refine ⟨?_, fun before leads => whole (char :: before) ?_⟩
    · rw [Bool.eq_false_iff]
      intro separates
      obtain ⟨-, rfl⟩ := ListScan.quoting_of_separatesAt separates
      have none : scan.separatesAt ',' = false := whole [] ⟨text, rfl⟩
      rw [none] at separates
      cases separates
    · exact (List.prefix_cons_inj char).mpr leads
  · rintro ⟨goesOn, whole⟩ before leads
    cases before with
    | nil =>
        obtain ⟨rest, parts⟩ := leads
        rw [(List.cons.inj parts).1]
        exact goesOn
    | cons first before =>
        obtain ⟨rfl, leadsRest⟩ := List.cons_prefix_cons.mp leads
        exact whole before leadsRest

instance decidableUnseparated :
    (scan : ListScan) → (text : Text) → Decidable (Unseparated scan text)
  | _, [] => isTrue fun before leads => by
      have comma : ',' ∈ ([] : Text) := leads.subset (by simp)
      cases comma
  | scan, char :: text =>
      have := decidableUnseparated (scan.step char) text
      decidable_of_iff _ unseparated_cons_iff.symm

/-- A text in which nothing separates goes whole into the first piece. -/
theorem listPieces_append
    {scan : ListScan}
    {text rest first : Text}
    {others : List Text}
    (whole : Unseparated scan text)
    (pieces : listPieces (scan.over text) rest = first :: others) :
    listPieces scan (text ++ rest) = (text ++ first) :: others := by
  induction text generalizing scan with
  | nil => exact pieces
  | cons char text ih =>
      obtain ⟨goesOn, wholeRest⟩ := unseparated_cons_iff.mp whole
      rw [List.cons_append, listPieces, goesOn, if_neg Bool.false_ne_true, ih wholeRest pieces]
      rfl

/-- The separator of a list is a comma with blanks behind it. -/
theorem exists_separator_eq (list : Text) :
    ∃ blanks, (separator? list).getD [',', ' '] = ',' :: blanks ∧
      Text.isBlankText blanks = true := by
  have found (scan : ListScan) (separator : Text) :
      separatorFrom? scan list = some separator →
        ∃ blanks, separator = ',' :: blanks ∧ Text.isBlankText blanks = true := by
    intro found
    induction list generalizing scan with
    | nil => cases found
    | cons first rest ih =>
        rw [separatorFrom?] at found
        split at found
        · rename_i separates
          obtain ⟨-, rfl⟩ := ListScan.quoting_of_separatesAt separates
          cases found
          exact ⟨_, rfl, List.all_takeWhile⟩
        · exact ih _ found
  cases separated : separator? list with
  | none => exact ⟨[' '], rfl, rfl⟩
  | some separator => exact found .initial separator separated

/-- The pieces of a list have the markers of the list. -/
theorem hasMarkerFrom_iff_of_listPieces
    {scan : ListScan}
    {markers : MarkerScan}
    (same : scan.quoting = markers.quoting)
    {text first : Text}
    {others : List Text}
    (pieces : listPieces scan text = first :: others) :
    HasMarkerFrom markers text ↔
      HasMarkerFrom markers first ∨ ∃ piece ∈ others, HasMarker piece := by
  induction others generalizing scan markers text first with
  | nil =>
      obtain whole | ⟨piece, rest, -, -, split⟩ := listPieces_cases scan text
      · cases whole.symm.trans pieces
        simp
      · have none := (List.cons.inj (split.symm.trans pieces)).2
        exact absurd none (listPieces_ne_nil _ _)
  | cons second others ih =>
      obtain whole | ⟨piece, rest, rfl, separates, split⟩ := listPieces_cases scan text
      · cases whole.symm.trans pieces
      · obtain ⟨rfl, later⟩ := List.cons.inj (split.symm.trans pieces)
        obtain ⟨outside, -⟩ := ListScan.quoting_of_separatesAt separates
        have outsideHere : (markers.over piece).quoting = .outside := by
          rw [MarkerScan.quoting_over, ← same, ← ListScan.quoting_over, outside]
        have may := separates_comma.mayMark_step outsideHere
        have sameLater : (scan.over piece).quoting =
            ((markers.over piece).step ',').quoting := by
          rw [outside, MarkerScan.quoting_step, outsideHere, separates_comma.plain]
        have restIff := ih sameLater later
        rw [Selector.hasMarkerFrom_append_iff separates_comma.foreign separates_comma.ends,
          restIff, Selector.hasMarkerFrom_iff_of_mayMark may]
        simp

/-- The selectors of a list are its pieces, trimmed, but for empty ones. -/
theorem exists_mem_selectorsOf_iff
    {holds : Text → Prop}
    (notEmpty : ¬holds [])
    {list : Text} :
    (∃ selector ∈ selectorsOf list, holds selector) ↔
      ∃ piece ∈ listPieces .initial list, holds (Text.trim piece) := by
  obtain none | ⟨earlier, last, ends⟩ :=
    List.eq_nil_or_concat (listPieces .initial list)
  · exact absurd none (listPieces_ne_nil .initial list)
  · have kept : ∀ piece, holds (Text.trim piece) → piece ≠ [] := by
      rintro piece holdsTrimmed rfl
      exact notEmpty holdsTrimmed
    rw [List.concat_eq_append] at ends
    have selectors : selectorsOf list =
        ((earlier.filter fun piece => !piece.isEmpty) ++ [last]).map Text.trim := by
      unfold selectorsOf
      dsimp only
      rw [ends, List.dropLast_concat, List.getLast?_concat]
      rfl
    rw [selectors, ends]
    constructor
    · rintro ⟨selector, member, holdsHere⟩
      obtain ⟨piece, inside, rfl⟩ := List.mem_map.mp member
      refine ⟨piece, ?_, holdsHere⟩
      rcases List.mem_append.mp inside with early | final
      · exact List.mem_append.mpr (.inl (List.mem_filter.mp early).1)
      · exact List.mem_append.mpr (.inr final)
    · rintro ⟨piece, inside, holdsHere⟩
      refine ⟨Text.trim piece, List.mem_map.mpr ⟨piece, ?_, rfl⟩, holdsHere⟩
      rcases List.mem_append.mp inside with early | final
      · have isKept : (!piece.isEmpty) = true := by simpa using kept piece holdsHere
        exact List.mem_append.mpr (.inl (List.mem_filter.mpr ⟨early, isKept⟩))
      · exact List.mem_append.mpr (.inr final)

/-- A selector list has a bare marker exactly if one of its selectors has. -/
theorem hasMarker_iff_of_selectorsOf {list : Text} :
    HasMarker list ↔ ∃ selector ∈ selectorsOf list, HasMarker selector := by
  obtain ⟨first, others, pieces⟩ :=
    List.exists_cons_of_ne_nil (listPieces_ne_nil .initial list)
  have same : ListScan.initial.quoting = MarkerScan.initial.quoting := rfl
  have parts := hasMarkerFrom_iff_of_listPieces same pieces
  have notEmpty : ¬HasMarker [] := Selector.not_hasMarkerFrom_nil .initial
  rw [exists_mem_selectorsOf_iff notEmpty, pieces]
  simp only [Selector.hasMarker_trim_iff, List.mem_cons, exists_eq_or_imp]
  exact parts

end Css
end ComponentPipeline
