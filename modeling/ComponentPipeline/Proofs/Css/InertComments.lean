import ComponentPipeline.Proofs.Css.PieceMarkers
import ComponentPipeline.Proofs.Css.StatementComments
import ComponentPipeline.Proofs.Selector.UnwrappedLocals

/-!
# Comments that change nothing

The scans that split a list and look for markers read a comment like any other text.  A
comment is inert if they come out of it as they went in and find no marker in it.  What
becomes of a rule does not depend on what its inert comments say.
-/

namespace ComponentPipeline
namespace Css

open Selector (HasMarker HasMarkerFrom MarkerScan Quoting)

/-! ## Rules with a slash stay -/

section Slash

theorem exists_mem_listPieces
    {char : Char}
    (noComma : char ≠ ',')
    {text : Text}
    (member : char ∈ text)
    (scan : ListScan) :
    ∃ piece ∈ listPieces scan text, char ∈ piece := by
  induction text generalizing scan with
  | nil => cases member
  | cons first rest ih =>
      rw [listPieces]
      split
      · rename_i separates
        obtain ⟨-, rfl⟩ := ListScan.quoting_of_separatesAt separates
        obtain rfl | behind := List.mem_cons.mp member
        · exact absurd rfl noComma
        · obtain ⟨piece, isPiece, inside⟩ := ih behind scan
          exact ⟨piece, List.mem_cons_of_mem _ isPiece, inside⟩
      · obtain ⟨start, others, pieces⟩ :=
          List.exists_cons_of_ne_nil (listPieces_ne_nil (scan.step first) rest)
        rw [pieces]
        obtain rfl | behind := List.mem_cons.mp member
        · exact ⟨_, List.mem_cons_self, List.mem_cons_self⟩
        · obtain ⟨piece, isPiece, inside⟩ := ih behind (scan.step first)
          rw [pieces] at isPiece
          obtain rfl | later := List.mem_cons.mp isPiece
          · exact ⟨_, List.mem_cons_self, List.mem_cons_of_mem _ inside⟩
          · exact ⟨piece, List.mem_cons_of_mem _ later, inside⟩

/-- A selector with a slash is not lost, if neutralizing keeps texts with slashes. -/
theorem not_lost_of_slash
    {neutralize : Text → Text}
    (keeps : ∀ segment, '/' ∈ segment → Text.trim (neutralize segment) ≠ [])
    {selector : Text}
    (slash : '/' ∈ selector) :
    ¬Lost neutralize selector := by
  rintro ⟨-, rfl | ⟨beginning, rest, split, blank, gone⟩⟩
  · exact absurd slash (by decide)
  · have noSlash (text : Text) (empty : Text.trim text = []) : '/' ∉ text := fun member =>
      List.ne_nil_of_mem (Text.mem_trim (by decide) member) empty
    rw [Selector.eq_of_splitFrom split, List.mem_append, List.mem_flatMap] at slash
    obtain here | ⟨segment, member, behind⟩ := slash
    · exact noSlash beginning blank here
    · obtain inMarker | inside := List.mem_append.mp behind
      · exact absurd inMarker (by decide)
      · exact keeps segment inside (gone segment member)

/-- A rule whose list has a slash does not go, if neutralizing keeps texts with slashes. -/
theorem not_listGoes_of_slash
    {neutralize : Text → Text}
    (keeps : ∀ segment, '/' ∈ segment → Text.trim (neutralize segment) ≠ [])
    {list : Text}
    (slash : '/' ∈ list) :
    ¬ListGoes neutralize list := by
  rintro ⟨-, lost⟩
  have notEmpty : '/' ∉ ([] : Text) := List.not_mem_nil
  have someSelector : ∃ selector ∈ selectorsOf list, '/' ∈ selector := by
    obtain ⟨piece, isPiece, inside⟩ := exists_mem_listPieces (by decide) slash .initial
    exact (exists_mem_selectorsOf_iff notEmpty).mpr
      ⟨piece, isPiece, Text.mem_trim (by decide) inside⟩
  obtain ⟨selector, member, slashInside⟩ := someSelector
  exact not_lost_of_slash keeps slashInside (lost selector member)

theorem globalize_keeps_slash
    {segment : Text}
    (slash : '/' ∈ segment) :
    Text.trim (Selector.globalize segment) ≠ [] :=
  List.ne_nil_of_mem
    (Text.mem_trim (by decide) (Selector.mem_globalize (by decide) (by decide) slash))

end Slash

/-! ## Inert comments -/

namespace PieceScan

/-- The state outside strings and not behind a colon, by the number of open parentheses
in the list and that of open parentheses and brackets in the piece. -/
def outside (depth inside : Nat) : PieceScan :=
  ⟨⟨depth, none, false⟩, ⟨inside, none, false, false⟩⟩

/-- A slash is no part of anything that a scan looks for. -/
theorem step_slash
    {scan : PieceScan}
    (agrees : scan.Agrees)
    (isOutside : scan.markers.quoting = .outside) :
    scan.step '/' = outside scan.list.depth scan.markers.depth := by
  obtain ⟨⟨depth, quote, escaped⟩, ⟨inside, quote', escaped', afterColon⟩⟩ := scan
  cases isOutside
  cases agrees
  simp [step, ListScan.step, ListScan.separatesAt, MarkerScan.step, outside]

theorem agrees_outside (depth inside : Nat) : (outside depth inside).Agrees := rfl

end PieceScan

/-- A comment that the scans come out of as they went in, without a marker in it. -/
structure IsInert (body : Text) : Prop where
  /-- Nothing is opened or closed behind it, and the piece goes on. -/
  passes : ∀ depth inside,
    (PieceScan.outside depth inside).over (commented body) = .outside depth inside
  /-- It has no marker in it. -/
  unmarked : ¬HasMarker (commented body)

section Inert

variable {required : MarkerScan → Prop} {scan : PieceScan} {body rest : Text}

theorem slash_foreign : '/' ∉ Selector.marker := by decide

theorem slash_ends : Selector.continuesMarker '/' = false := by decide +kernel

theorem HasPieceMarker.hasMarkerFrom
    {text : Text}
    (agrees : scan.Agrees)
    (marked : HasPieceMarker required scan text) :
    HasMarkerFrom scan.markers text := by
  obtain ⟨first, others, pieces⟩ :=
    List.exists_cons_of_ne_nil (listPieces_ne_nil scan.list text)
  rw [hasPieceMarker_iff_of_listPieces pieces] at marked
  rw [hasMarkerFrom_iff_of_listPieces agrees pieces]
  obtain here | ⟨piece, member, later⟩ := marked
  · exact .inl here.hasMarkerFrom
  · exact .inr ⟨piece, member, later.hasMarkerFrom⟩

theorem hasMarkerFrom_slash_iff {markers : MarkerScan} :
    HasMarkerFrom markers ('/' :: rest) ↔ HasMarkerFrom (markers.step '/') rest := by
  have apart : HasMarkerFrom markers ([] ++ '/' :: rest) ↔ _ :=
    Selector.hasMarkerFrom_append_iff slash_foreign slash_ends
  exact apart.trans (or_iff_right (Selector.not_hasMarkerFrom_nil markers))

/-- If a comment has no marker in it, then what is left to look at is behind it, in the
state in which the scans come out of it. -/
theorem hasPieceMarker_commented_iff
    (unmarked : ¬HasMarker (commented body))
    (agrees : scan.Agrees)
    (isOutside : scan.markers.quoting = .outside) :
    HasPieceMarker required scan (commented body ++ rest) ↔
      HasPieceMarker required
        ((PieceScan.outside scan.list.depth scan.markers.depth).over (commented body)) rest := by
  -- The slash that ends the comment is no part of a marker and takes the text apart.
  let inside : Text := '*' :: (body ++ ['*'])
  have closed : commented body = '/' :: inside ++ ['/'] := by simp [commented, inside]
  have apart : HasPieceMarker required scan ('/' :: inside ++ '/' :: rest) ↔
      HasPieceMarker required scan ('/' :: inside) ∨
        HasPieceMarker required ((scan.over ('/' :: inside)).step '/') rest :=
    Selector.markerAt_append_iff slash_foreign slash_ends
  have noneBefore : ¬HasPieceMarker required scan ('/' :: inside) := by
    intro marked
    have here := hasMarkerFrom_slash_iff.mp (marked.hasMarkerFrom agrees)
    have sameQuoting : (scan.markers.step '/').quoting = (MarkerScan.initial.step '/').quoting := by
      rw [MarkerScan.quoting_step, MarkerScan.quoting_step, isOutside]
      rfl
    have sameColon : (scan.markers.step '/').afterColon =
        (MarkerScan.initial.step '/').afterColon := by
      rw [MarkerScan.afterColon_step, MarkerScan.afterColon_step]
    rw [Selector.hasMarkerFrom_congr sameQuoting sameColon, ← hasMarkerFrom_slash_iff] at here
    rw [closed] at unmarked
    exact unmarked ((Selector.hasMarkerFrom_append_iff slash_foreign slash_ends).mpr (.inl here))
  have behind : (scan.over ('/' :: inside)).step '/' =
      (PieceScan.outside scan.list.depth scan.markers.depth).over (commented body) := by
    have start : (PieceScan.outside scan.list.depth scan.markers.depth).step '/' =
        scan.step '/' := by
      rw [PieceScan.step_slash agrees isOutside,
        PieceScan.step_slash (PieceScan.agrees_outside _ _) rfl]
      rfl
    calc (scan.over ('/' :: inside)).step '/'
        = ((scan.step '/').over inside).step '/' := rfl
      _ = (((PieceScan.outside scan.list.depth scan.markers.depth).step '/').over inside).step
            '/' := by rw [start]
      _ = (PieceScan.outside scan.list.depth scan.markers.depth).over (commented body) := by
          rw [closed, PieceScan.over_append]
          rfl
  have whole : commented body ++ rest = '/' :: inside ++ '/' :: rest := by
    rw [closed]
    simp
  rw [whole, apart, or_iff_right noneBefore, behind]

/-- A character that is no part of anything that a scan looks for. -/
def IsCalm (char : Char) : Prop :=
  char ∉ [',', ':', '"', '\'', '\\', '(', ')', '[', ']']

instance (char : Char) : Decidable (IsCalm char) :=
  inferInstanceAs (Decidable (_ ∉ _))

/-- A text of such characters. -/
def IsCalmText (text : Text) : Prop :=
  ∀ char ∈ text, IsCalm char

instance (text : Text) : Decidable (IsCalmText text) :=
  List.decidableBAll IsCalm text

theorem PieceScan.outside_over_of_calm
    {text : Text}
    (calm : IsCalmText text)
    (depth inside : Nat) :
    (outside depth inside).over text = outside depth inside := by
  induction text with
  | nil => rfl
  | cons char rest ih =>
      have here := calm char List.mem_cons_self
      simp only [IsCalm, List.mem_cons, List.not_mem_nil, or_false, not_or] at here
      have stays : (outside depth inside).step char = outside depth inside := by
        simp [outside, step, ListScan.step, ListScan.separatesAt, MarkerScan.step, here]
      rw [over_cons, stays]
      exact ih fun other member => calm other (List.mem_cons_of_mem _ member)

/-- A comment without separators, quotes, backslashes, colons, parentheses and brackets is
inert. -/
theorem isInert_of_calm (calm : IsCalmText body) : IsInert body := by
  have delimiters : IsCalmText (commented []) := by decide
  have whole : IsCalmText (commented body) := by
    intro char member
    simp only [IsCalmText, commented, List.mem_cons, List.mem_append, List.nil_append]
      at member delimiters
    obtain opens | opens | inside | closes := member
    · exact delimiters char (.inl opens)
    · exact delimiters char (.inr (.inl opens))
    · exact calm char inside
    · exact delimiters char (.inr (.inr closes))
  refine ⟨PieceScan.outside_over_of_calm whole, fun marked => ?_⟩
  have somewhere : HasPieceMarker (fun _ => True) .initial (commented body) :=
    hasPieceMarker_true_iff.mpr marked
  exact absurd (whole ':' (Selector.MarkerAt.colon_mem somewhere)) (by decide)

theorem isInert_nil : IsInert [] :=
  isInert_of_calm (by decide)

/-- Emptying inert comments leaves the markers of a list as they are. -/
theorem Comments.hasPieceMarker_iff
    {quoting : Quoting}
    {text emptied : Text}
    {bodies : List Text}
    (comments : Comments quoting text bodies emptied)
    (inert : ∀ body ∈ bodies, IsInert body)
    (agrees : scan.Agrees)
    (isQuoting : scan.markers.quoting = quoting) :
    HasPieceMarker required scan text ↔ HasPieceMarker required scan emptied := by
  induction comments generalizing scan with
  | nil => rfl
  | @char quoting char rest bodies emptied opensNone others ih =>
      have nextQuoting : (scan.step char).markers.quoting = quoting.step char := by
        rw [← agrees.step char, ← isQuoting, ← agrees]
        exact ListScan.quoting_step _ _
      have same : (Selector.afterMarker? (char :: rest)).isSome = true ↔
          (Selector.afterMarker? (char :: emptied)).isSome = true := by
        obtain rfl | ⟨before, inside, inside', rfl, rfl⟩ := others.eq_or_exists_slash
        · rfl
        · have upToSlash (inside : Text) :
              (Selector.afterMarker? (char :: before ++ '/' :: inside)).isSome = true ↔
                (Selector.afterMarker? (char :: before)).isSome = true :=
            isSome_afterMarker?_append_iff slash_foreign slash_ends
          exact (upToSlash inside).trans (upToSlash inside').symm
      have here : (scan.markers.markerAt? (char :: rest)).isSome = true ↔
          (scan.markers.markerAt? (char :: emptied)).isSome = true := by
        rw [MarkerScan.markerAt?, MarkerScan.markerAt?]
        split
        · exact same
        · rfl
      rw [hasPieceMarker_cons_iff, hasPieceMarker_cons_iff, here,
        ih inert (agrees.step char) nextQuoting]
  | @comment body rest bodies emptied isBody others ih =>
      obtain ⟨inertHere, inertOthers⟩ := List.forall_mem_cons.mp inert
      rw [hasPieceMarker_commented_iff inertHere.unmarked agrees isQuoting,
        hasPieceMarker_commented_iff isInert_nil.unmarked agrees isQuoting,
        inertHere.passes, isInert_nil.passes,
        ih inertOthers (PieceScan.agrees_outside _ _) rfl]

end Inert

/-! ## What becomes of a rule with inert comments -/

/-- What becomes of a rule does not depend on what its inert comments say. -/
theorem Comments.ruleFate_eq
    {neutralize : Text → Text}
    (keeps : ∀ segment, '/' ∈ segment → Text.trim (neutralize segment) ≠ [])
    {rule : Rule}
    {bodies : List Text}
    {emptied : Text}
    (comments : Comments .outside rule.selector bodies emptied)
    (inert : ∀ body ∈ bodies, IsInert body) :
    ruleFate neutralize rule = ruleFate neutralize { rule with selector := emptied } := by
  have same {required : MarkerScan → Prop} :
      HasPieceMarker required .initial rule.selector ↔ HasPieceMarker required .initial emptied :=
    comments.hasPieceMarker_iff inert PieceScan.agrees_initial rfl
  apply ruleFate_congr same
  · rw [← hasPieceMarker_true_iff, ← hasPieceMarker_true_iff]
    exact same
  · obtain whole | ⟨before, inside, inside', parts, parts'⟩ := comments.eq_or_exists_slash
    · rw [whole]
    · have slash : '/' ∈ rule.selector := by simp [parts]
      have slash' : '/' ∈ emptied := by simp [parts']
      exact iff_of_false (not_listGoes_of_slash keeps slash) (not_listGoes_of_slash keeps slash')

end Css
end ComponentPipeline
