import ComponentPipeline.Proofs.Css.RejectedMarkers
import ComponentPipeline.Proofs.Css.Stability

/-!
# What becomes of a rule

A rule fails, stays as it is, goes, or is rewritten.  Which of these it is depends on
where the bare markers of its selector list stand.  Splitting the list and looking for
markers in the pieces is one scan over the whole list: the scan for markers starts anew
behind every separator.
-/

namespace ComponentPipeline
namespace Css

open Selector (HasMarker HasMarkerFrom HasMarkerWhere HasNestedMarker MarkerScan Quoting)

/-! ## One scan over a list -/

/-- The state of a scan that splits a list and looks for markers in its pieces. -/
structure PieceScan where
  /-- The scan that splits the list. -/
  list : ListScan
  /-- The scan of the piece. -/
  markers : MarkerScan

namespace PieceScan

/-- The state at the start of a list. -/
def initial : PieceScan := ⟨.initial, .initial⟩

/-- The state after a character. -/
def step (scan : PieceScan) (char : Char) : PieceScan where
  list := scan.list.step char
  markers := if scan.list.separatesAt char then .initial else scan.markers.step char

end PieceScan

/-- The state after a text. -/
def PieceScan.over (scan : PieceScan) (text : Text) : PieceScan :=
  text.foldl PieceScan.step scan

namespace PieceScan

@[simp] theorem over_nil (scan : PieceScan) : scan.over [] = scan := rfl

@[simp] theorem over_cons (scan : PieceScan) (char : Char) (rest : Text) :
    scan.over (char :: rest) = (scan.step char).over rest := rfl

theorem over_append (scan : PieceScan) (first second : Text) :
    scan.over (first ++ second) = (scan.over first).over second :=
  List.foldl_append

/-- The two scans agree on strings and escapes. -/
def Agrees (scan : PieceScan) : Prop :=
  scan.list.quoting = scan.markers.quoting

theorem agrees_initial : initial.Agrees := rfl

theorem Agrees.step {scan : PieceScan} (agrees : scan.Agrees) (char : Char) :
    (scan.step char).Agrees := by
  unfold Agrees PieceScan.step
  dsimp only
  split
  · rename_i separates
    rw [ListScan.step_of_separatesAt separates]
    exact (ListScan.quoting_of_separatesAt separates).1
  · rw [ListScan.quoting_step, MarkerScan.quoting_step, agrees]

theorem Agrees.over {scan : PieceScan} (agrees : scan.Agrees) (text : Text) :
    (scan.over text).Agrees := by
  induction text generalizing scan with
  | nil => exact agrees
  | cons char rest ih => exact ih (agrees.step char)

theorem list_over (scan : PieceScan) (text : Text) :
    (scan.over text).list = scan.list.over text := by
  induction text generalizing scan with
  | nil => rfl
  | cons char rest ih => exact ih (scan.step char)

theorem quoting_over
    {scan : PieceScan}
    (agrees : scan.Agrees)
    (text : Text) :
    (scan.over text).markers.quoting = scan.markers.quoting.over text := by
  rw [← agrees.over text, list_over, ListScan.quoting_over, agrees]

end PieceScan

/-- A bare marker in a piece of a list, at a place where the state of the scan of the
piece is as required. -/
def HasPieceMarker
    (required : MarkerScan → Prop)
    (scan : PieceScan)
    (text : Text) : Prop :=
  Selector.MarkerAt PieceScan.step
    (fun scan => scan.markers.mayMark = true ∧ required scan.markers) scan text

/-- A bare marker stays one before a character that is no part of it and ends it, and
such a character makes none. -/
theorem isSome_afterMarker?_append_iff
    {char : Char}
    {first second : Text}
    (foreign : char ∉ Selector.marker)
    (ends : Selector.continuesMarker char = false) :
    (Selector.afterMarker? (first ++ char :: second)).isSome = true ↔
      (Selector.afterMarker? first).isSome = true := by
  refine ⟨fun marked => ?_, Selector.isSome_afterMarker?_append ends⟩
  simp only [Option.isSome_iff_exists, Selector.afterMarker?_eq_some_iff] at marked ⊢
  obtain ⟨after, parts, endsAfter⟩ := marked
  have whole : first ++ char :: second = [] ++ Selector.marker ++ after := parts
  obtain ⟨between, rfl, rfl⟩ | ⟨between, empty, -⟩ :=
    Selector.before_or_behind_of_append_eq foreign whole
  · exact ⟨between, rfl, (Selector.endsMarker_append_iff ends).mp endsAfter⟩
  · cases first <;> cases empty

theorem hasPieceMarker_cons_iff
    {required : MarkerScan → Prop}
    {scan : PieceScan}
    {char : Char}
    {rest : Text} :
    HasPieceMarker required scan (char :: rest) ↔
      (scan.markers.markerAt? (char :: rest)).isSome = true ∧ required scan.markers ∨
        HasPieceMarker required (scan.step char) rest := by
  rw [HasPieceMarker, Selector.markerAt_cons_iff, ← HasPieceMarker, MarkerScan.markerAt?]
  cases scan.markers.mayMark <;> simp

/-- No marker starts in a text without a colon. -/
theorem hasPieceMarker_append_iff_of_noColon
    {required : MarkerScan → Prop}
    {scan : PieceScan}
    {leading text : Text}
    (noColon : ':' ∉ leading) :
    HasPieceMarker required scan (leading ++ text) ↔
      HasPieceMarker required (scan.over leading) text :=
  Selector.markerAt_append_iff_of_noColon noColon

/-- The markers of a list are those of its pieces. -/
theorem hasPieceMarker_iff_of_listPieces
    {required : MarkerScan → Prop}
    {scan : PieceScan}
    {text first : Text}
    {others : List Text}
    (pieces : listPieces scan.list text = first :: others) :
    HasPieceMarker required scan text ↔
      HasMarkerWhere required scan.markers first ∨
        ∃ piece ∈ others, HasMarkerWhere required .initial piece := by
  induction text generalizing scan first others with
  | nil =>
      cases pieces
      simp [HasPieceMarker, Selector.hasMarkerWhere_iff_markerAt, Selector.not_markerAt_nil]
  | cons char rest ih =>
      obtain ⟨piece, later, split⟩ :=
        List.exists_cons_of_ne_nil (listPieces_ne_nil (scan.step char).list rest)
      rw [hasPieceMarker_cons_iff, ih split]
      rw [listPieces] at pieces
      split at pieces
      · rename_i separates
        obtain ⟨-, rfl⟩ := ListScan.quoting_of_separatesAt separates
        have behind : scan.step ',' = ⟨scan.list, .initial⟩ := by
          rw [PieceScan.step, ListScan.step_of_separatesAt separates, if_pos separates]
        rw [behind] at split ⊢
        obtain ⟨rfl, rfl⟩ := List.cons.inj pieces
        have absent : ¬(scan.markers.markerAt? (',' :: rest)).isSome = true := by
          rw [Option.isSome_iff_exists]
          rintro ⟨after, found⟩
          cases (MarkerScan.markerAt?_eq_some_iff.mp found).2.1
        simp [split, absent, Selector.hasMarkerWhere_iff_markerAt, Selector.not_markerAt_nil]
      · rename_i goesOn
        have within : scan.step char = ⟨scan.list.step char, scan.markers.step char⟩ := by
          rw [PieceScan.step, if_neg goesOn]
        rw [within] at split ⊢
        simp only [split] at pieces
        obtain ⟨rfl, rfl⟩ := List.cons.inj pieces
        have here : (scan.markers.markerAt? (char :: rest)).isSome = true ↔
            (scan.markers.markerAt? (char :: piece)).isSome = true := by
          obtain whole | ⟨start, more, rfl, -, cut⟩ := listPieces_cases (scan.list.step char) rest
          · obtain ⟨rfl, -⟩ := List.cons.inj (whole.symm.trans split)
            rfl
          · obtain ⟨rfl, -⟩ := List.cons.inj (cut.symm.trans split)
            have ends : (Selector.afterMarker? (char :: start ++ ',' :: more)).isSome = true ↔
                (Selector.afterMarker? (char :: start)).isSome = true :=
              isSome_afterMarker?_append_iff separates_comma.foreign separates_comma.ends
            rw [MarkerScan.markerAt?, MarkerScan.markerAt?]
            split
            · exact ends
            · rfl
        rw [Selector.hasMarkerWhere_cons_iff, here, or_assoc]

/-! ## The fate of a rule -/

section List

variable {list : Text}

theorem hasPieceMarker_inside_iff :
    HasPieceMarker MarkerScan.IsInside .initial list ↔
      ∃ selector ∈ selectorsOf list, HasNestedMarker selector := by
  obtain ⟨first, others, pieces⟩ :=
    List.exists_cons_of_ne_nil (listPieces_ne_nil .initial list)
  have notEmpty : ¬HasNestedMarker [] := fun nested =>
    Selector.not_hasMarkerFrom_nil _ nested.hasMarkerFrom
  have parts : HasPieceMarker MarkerScan.IsInside .initial list ↔ _ :=
    hasPieceMarker_iff_of_listPieces pieces
  rw [exists_mem_selectorsOf_iff notEmpty, pieces, parts]
  simp only [Selector.hasNestedMarker_trim_iff, List.mem_cons, exists_eq_or_imp]
  rfl

theorem hasPieceMarker_true_iff :
    HasPieceMarker (fun _ => True) .initial list ↔ HasMarker list := by
  obtain ⟨first, others, pieces⟩ :=
    List.exists_cons_of_ne_nil (listPieces_ne_nil .initial list)
  have notEmpty : ¬HasMarker [] := Selector.not_hasMarkerFrom_nil _
  have parts : HasPieceMarker (fun _ => True) .initial list ↔ _ :=
    hasPieceMarker_iff_of_listPieces pieces
  rw [hasMarker_iff_of_selectorsOf, exists_mem_selectorsOf_iff notEmpty, pieces, parts]
  simp only [Selector.hasMarker_trim_iff, Selector.hasMarkerWhere_true_iff, List.mem_cons,
    exists_eq_or_imp]
  rfl

end List

/-- What becomes of a rule, without the texts. -/
inductive RuleFate
  /-- A marker cannot be removed. -/
  | rejected
  /-- It has no marker and stays as it is. -/
  | untouched
  /-- Nothing is left of its selectors. -/
  | removed
  /-- It stays without its markers. -/
  | rewritten
  deriving DecidableEq, Repr

/-- What becomes of a rule, without the texts. -/
def ruleFate (neutralize : Text → Text) (rule : Rule) : RuleFate :=
  match judgeRule neutralize rule with
  | .error _ => .rejected
  | .ok .drop => .removed
  | .ok (.keep _) => if HasMarker rule.selector then .rewritten else .untouched

section Fate

variable {neutralize : Text → Text} {rule : Rule}

/-- A rule is rejected for a nested marker of a piece of its list. -/
theorem ruleFate_eq_rejected_iff :
    ruleFate neutralize rule = .rejected ↔
      HasPieceMarker MarkerScan.IsInside .initial rule.selector := by
  rw [hasPieceMarker_inside_iff, ruleFate]
  cases judged : judgeRule neutralize rule with
  | error failure =>
      obtain ⟨selector, member, nested, -⟩ :=
        exists_nested_of_selectorFates (judgeRule_eq_error_iff.mp judged)
      exact iff_of_true rfl ⟨selector, member, nested⟩
  | ok verdict =>
      refine iff_of_false ?_ ?_
      · cases verdict with
        | drop => exact RuleFate.noConfusion
        | keep selector =>
            dsimp only
            split <;> exact RuleFate.noConfusion
      · rintro ⟨selector, member, nested⟩
        cases fates : selectorFates neutralize rule.selectors with
        | ok found => exact not_nested_of_selectorFates fates selector member nested
        | error failure => cases judged.symm.trans (judgeRule_eq_error_iff.mpr fates)

/-- A rule without a marker is left as it is, and no other one. -/
theorem ruleFate_eq_untouched_iff :
    ruleFate neutralize rule = .untouched ↔ ¬HasMarker rule.selector := by
  constructor
  · intro untouched marked
    rw [ruleFate] at untouched
    split at untouched
    · cases untouched
    · cases untouched
    · rw [if_pos marked] at untouched
      cases untouched
  · intro unmarked
    rw [ruleFate, judgeRule_of_not_hasMarker neutralize unmarked]
    exact if_neg unmarked

/-- A rule goes if it is not rejected and nothing is left of its list. -/
theorem ruleFate_eq_removed_iff :
    ruleFate neutralize rule = .removed ↔
      ruleFate neutralize rule ≠ .rejected ∧ ListGoes neutralize rule.selector := by
  rw [ruleFate]
  cases judged : judgeRule neutralize rule with
  | error failure => simp
  | ok verdict =>
      have follows := follows_of_judgeRule judged
      cases verdict with
      | drop => exact iff_of_true rfl ⟨RuleFate.noConfusion, follows⟩
      | keep selector =>
          refine iff_of_false ?_ fun goes => follows.1 goes.2
          dsimp only
          split <;> exact RuleFate.noConfusion

end Fate

/-- Rules with the same markers, of which both go or none, meet the same fate. -/
theorem ruleFate_congr
    {neutralize : Text → Text}
    {rule other : Rule}
    (sameRejected : HasPieceMarker MarkerScan.IsInside .initial rule.selector ↔
      HasPieceMarker MarkerScan.IsInside .initial other.selector)
    (sameMarked : HasMarker rule.selector ↔ HasMarker other.selector)
    (sameGoes : ListGoes neutralize rule.selector ↔ ListGoes neutralize other.selector) :
    ruleFate neutralize rule = ruleFate neutralize other := by
  have rejected :
      ruleFate neutralize rule = .rejected ↔ ruleFate neutralize other = .rejected :=
    ruleFate_eq_rejected_iff.trans (sameRejected.trans ruleFate_eq_rejected_iff.symm)
  have untouched :
      ruleFate neutralize rule = .untouched ↔ ruleFate neutralize other = .untouched :=
    ruleFate_eq_untouched_iff.trans
      ((not_congr sameMarked).trans ruleFate_eq_untouched_iff.symm)
  have removed : ruleFate neutralize rule = .removed ↔ ruleFate neutralize other = .removed :=
    ruleFate_eq_removed_iff.trans
      ((and_congr (not_congr rejected) sameGoes).trans ruleFate_eq_removed_iff.symm)
  cases fate : ruleFate neutralize rule <;> cases otherFate : ruleFate neutralize other <;>
    simp_all

end Css
end ComponentPipeline
