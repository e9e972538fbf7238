import ComponentPipeline.Proofs.Css.GlobalizedRules
import ComponentPipeline.Proofs.Css.ListMarkers
import ComponentPipeline.Proofs.Css.Rereading
import ComponentPipeline.Proofs.Selector.Compounds
import ComponentPipeline.Proofs.Selector.MarkerPlaces

/-!
# Selectors that are left clean

A text is closed if no string, escape, comment, parenthesis or bracket is open
at its end and nothing in it ends a statement.  Globalizing compounds that are
closed and joining the results gives a text that is closed again and has no bare
marker.
-/

namespace ComponentPipeline
namespace Css

open Selector (HasMarker HasMarkerFrom MarkerScan Quoting Separates)

/-- A text that leaves nothing open, neither for the reader nor for the scan for
markers. -/
structure Closed (text : Text) : Prop where
  /-- The scan for markers is outside strings and not behind a backslash. -/
  outside : Quoting.outside.over text = .outside
  /-- The reader goes over it as a part of a statement and is where it was. -/
  taken : StatementScan.initial.over? text = some .initial

instance (text : Text) : Decidable (Closed text) :=
  decidable_of_iff
    (Quoting.outside.over text = .outside ∧ StatementScan.initial.over? text = some .initial)
    ⟨fun both => ⟨both.1, both.2⟩, fun closed => ⟨closed.outside, closed.taken⟩⟩

/-- A closed text without a bare marker that does not start with a comment. -/
structure Clean (text : Text) : Prop where
  /-- It is closed. -/
  closed : Closed text
  /-- It has no bare marker. -/
  unmarked : ¬HasMarker text
  /-- It does not start with a comment. -/
  noComment : ¬OpensComment (text.dropWhile isGap)

instance (text : Text) : Decidable (Clean text) :=
  decidable_of_iff (Closed text ∧ ¬HasMarker text ∧ ¬OpensComment (text.dropWhile isGap))
    ⟨fun ⟨closed, unmarked, noComment⟩ => ⟨closed, unmarked, noComment⟩,
      fun ⟨closed, unmarked, noComment⟩ => ⟨closed, unmarked, noComment⟩⟩

theorem closed_nil : Closed [] := ⟨rfl, rfl⟩

theorem clean_nil : Clean [] :=
  ⟨closed_nil, Selector.not_hasMarkerFrom_nil _, by simp⟩

/-! ## Joining clean texts -/

/-- A character that joins texts and belongs to neither. -/
structure Joint (char : Char) : Prop where
  /-- The reader passes over it. -/
  neutral : StatementScan.Neutral char
  /-- Markers do not reach over it. -/
  separates : Separates char
  /-- It does not open a comment behind a slash. -/
  noStar : char ≠ '*'

theorem joint_of_isBlank {char : Char} (blank : Text.isBlank char = true) : Joint char := by
  refine ⟨StatementScan.neutral_of_isBlank blank, Selector.separates_of_isBlank blank, ?_⟩
  rintro rfl
  cases blank

theorem joint_of_continuesCombinator
    {char : Char}
    (continues : Selector.continuesCombinator char = true) :
    Joint char := by
  have separates := Selector.separates_of_continuesCombinator continues
  simp only [Selector.continuesCombinator, Bool.or_eq_true, beq_iff_eq] at continues
  rcases continues with (((blank | rfl) | rfl) | rfl) | rfl
  · exact joint_of_isBlank blank
  all_goals exact ⟨⟨by decide, by decide⟩, separates, by decide⟩

theorem Closed.append
    {first second : Text}
    (firstClosed : Closed first)
    (secondClosed : Closed second) :
    Closed (first ++ second) := by
  constructor
  · rw [Quoting.over_append, firstClosed.outside, secondClosed.outside]
  · rw [StatementScan.over?_append, firstClosed.taken]
    exact secondClosed.taken

theorem Joint.closed {char : Char} (joint : Joint char) : Closed [char] := by
  obtain ⟨goesOn, stays⟩ := joint.neutral
  constructor
  · exact joint.separates.plain
  · rw [StatementScan.over?_cons, goesOn, if_neg Bool.false_ne_true, stays]
    rfl

/-- The scan for markers may find one behind a joint. -/
theorem hasMarker_append_iff_of_closed
    {first second : Text}
    {char : Char}
    (closed : Closed first)
    (joint : Joint char) :
    HasMarker (first ++ char :: second) ↔ HasMarker first ∨ HasMarker second := by
  have outside : (MarkerScan.initial.over first).quoting = .outside := by
    rw [MarkerScan.quoting_over]
    exact closed.outside
  have later : HasMarkerFrom ((MarkerScan.initial.over first).step char) second ↔
      HasMarker second :=
    Selector.hasMarkerFrom_iff_of_mayMark (joint.separates.mayMark_step outside)
  have apart : HasMarkerFrom .initial (first ++ char :: second) ↔ _ :=
    Selector.hasMarkerFrom_append_iff joint.separates.foreign joint.separates.ends
  rw [later] at apart
  exact apart

/-- A joint does not make a comment of the text before it. -/
theorem noComment_append
    {first second : Text}
    {char : Char}
    (joint : Joint char)
    (noCommentFirst : ¬OpensComment (first.dropWhile isGap))
    (noCommentSecond : ¬OpensComment (second.dropWhile isGap)) :
    ¬OpensComment ((first ++ char :: second).dropWhile isGap) := by
  have noSlash : char ≠ '/' := by
    rintro rfl
    have stays := joint.neutral.2
    cases stays
  cases left : first.dropWhile isGap with
  | nil =>
      have gapped : IsGap first := by
        rw [← List.takeWhile_append_dropWhile (p := isGap) (l := first), left, List.append_nil]
        exact isGap_takeWhile first
      rw [List.dropWhile_append_of_pos gapped, List.dropWhile_cons]
      split
      · exact noCommentSecond
      · rintro ⟨body, parts⟩
        exact noSlash (List.cons.inj parts).1.symm
  | cons start rest =>
      have kept : (first ++ char :: second).dropWhile isGap =
          first.dropWhile isGap ++ char :: second := by
        rw [List.dropWhile_append, left]
        rfl
      rw [kept]
      refine not_comment_append noCommentFirst ?_
      rintro _ ⟨⟩
      exact ⟨noSlash, joint.noStar⟩

theorem Clean.append
    {first second : Text}
    {char : Char}
    (firstClean : Clean first)
    (joint : Joint char)
    (secondClean : Clean second) :
    Clean (first ++ char :: second) := by
  refine ⟨?_, ?_, noComment_append joint firstClean.noComment secondClean.noComment⟩
  · have joined := firstClean.closed.append (joint.closed.append secondClean.closed)
    exact joined
  · rw [hasMarker_append_iff_of_closed firstClean.closed joint, not_or]
    exact ⟨firstClean.unmarked, secondClean.unmarked⟩

/-- Texts may be joined by any joints, at least one. -/
theorem Clean.append_joints
    {first second joints : Text}
    (firstClean : Clean first)
    (isJoint : ∀ char ∈ joints, Joint char)
    (notEmpty : joints ≠ [])
    (secondClean : Clean second) :
    Clean (first ++ joints ++ second) := by
  have behind : ∀ joints : Text, (∀ char ∈ joints, Joint char) → Clean (joints ++ second) := by
    intro joints isJoint
    induction joints with
    | nil => exact secondClean
    | cons char rest ih =>
        have later := ih fun other member => isJoint other (List.mem_cons_of_mem _ member)
        exact clean_nil.append (isJoint char List.mem_cons_self) later
  obtain ⟨char, rest, rfl⟩ := List.exists_cons_of_ne_nil notEmpty
  rw [List.append_assoc, List.cons_append]
  exact firstClean.append (isJoint char List.mem_cons_self)
    (behind rest fun other member => isJoint other (List.mem_cons_of_mem _ member))

theorem clean_intercalate
    {separator : Text}
    {texts : List Text}
    (isJoint : ∀ char ∈ separator, Joint char)
    (notEmpty : separator ≠ [])
    (clean : ∀ text ∈ texts, Clean text) :
    Clean (List.intercalate separator texts) := by
  induction texts with
  | nil => exact clean_nil
  | cons first rest ih =>
      have firstClean := clean first List.mem_cons_self
      have restClean := ih fun text member => clean text (List.mem_cons_of_mem _ member)
      cases rest with
      | nil =>
          rw [List.intercalate_singleton]
          exact firstClean
      | cons second rest =>
          rw [List.intercalate_cons_cons]
          exact firstClean.append_joints isJoint notEmpty restClean

/-! ## Globalized compounds -/

namespace StatementScan

/-- A state with one more parenthesis open, unless it has been closed. -/
def DeeperThan (deeper scan : StatementScan) : Prop :=
  deeper.surrounding = scan.surrounding ∧
    (deeper.depth = scan.depth ∨ deeper.depth = scan.depth + 1)

variable {deeper scan : StatementScan}

theorem DeeperThan.endsAt
    (isDeeper : deeper.DeeperThan scan)
    {char : Char}
    (goesOn : scan.endsAt char = false) :
    deeper.endsAt char = false := by
  obtain ⟨surrounding, depth⟩ := scan
  obtain ⟨surrounding', depth'⟩ := deeper
  obtain ⟨same, depths⟩ := isDeeper
  simp only at same depths
  subst same
  rcases depths with rfl | rfl
  · exact goesOn
  · have plain : isPlain ⟨surrounding', depth + 1⟩ = isPlain ⟨surrounding', depth⟩ := by
      cases surrounding' <;> rfl
    simp only [StatementScan.endsAt, plain, Bool.and_eq_false_iff, Bool.or_eq_false_iff] at goesOn ⊢
    rcases goesOn with notPlain | ⟨noBrace, -⟩
    · exact .inl notPlain
    · exact .inr ⟨noBrace, .inl (by simp)⟩

theorem deeperThan_plainStep
    {depth depth' : Nat}
    (depths : depth' = depth ∨ depth' = depth + 1)
    (offset : Nat)
    (char : Char) :
    (plainStep depth' offset char).DeeperThan (plainStep depth offset char) := by
  unfold plainStep
  repeat' split
  all_goals first | contradiction | exact ⟨rfl, by dsimp only; omega⟩

theorem DeeperThan.step
    (isDeeper : deeper.DeeperThan scan)
    (offset : Nat)
    (char : Char) :
    (deeper.step offset char).DeeperThan (scan.step offset char) := by
  obtain ⟨surrounding, depth⟩ := scan
  obtain ⟨surrounding', depth'⟩ := deeper
  obtain ⟨same, depths⟩ := isDeeper
  simp only at same depths
  subst same
  cases surrounding' with
  | plain => exact deeperThan_plainStep depths offset char
  | afterSlash start =>
      by_cases star : char = '*'
      · simp only [StatementScan.step, if_pos star]
        exact ⟨rfl, depths⟩
      · simp only [StatementScan.step, if_neg star]
        exact deeperThan_plainStep depths offset char
  | afterBackslash => exact ⟨rfl, depths⟩
  | stringAfterBackslash quote start => exact ⟨rfl, depths⟩
  | string quote start =>
      simp only [StatementScan.step]
      repeat' split
      all_goals first | contradiction | exact ⟨rfl, depths⟩
  | comment start =>
      simp only [StatementScan.step]
      repeat' split
      all_goals first | contradiction | exact ⟨rfl, depths⟩
  | commentAfterStar start =>
      simp only [StatementScan.step]
      repeat' split
      all_goals first | contradiction | exact ⟨rfl, depths⟩

theorem DeeperThan.over?
    (isDeeper : deeper.DeeperThan scan)
    {text : Text}
    {final : StatementScan}
    (taken : scan.over? text = some final) :
    ∃ deeperFinal, deeper.over? text = some deeperFinal ∧ deeperFinal.DeeperThan final := by
  induction text generalizing deeper scan with
  | nil =>
      cases taken
      exact ⟨deeper, rfl, isDeeper⟩
  | cons char rest ih =>
      rw [over?_cons] at taken
      split at taken
      · cases taken
      · rename_i goesOn
        have goesOnDeeper := isDeeper.endsAt (Bool.eq_false_iff.mpr goesOn)
        rw [over?_cons, goesOnDeeper, if_neg Bool.false_ne_true]
        exact ih (isDeeper.step 0 char) taken

end StatementScan

/-- A closed text is closed in parentheses as well. -/
theorem over?_parenthesized
    {text : Text}
    (closed : Closed text) :
    StatementScan.over? ⟨.plain, 1⟩ (text ++ [')']) = some .initial := by
  have isDeeper : StatementScan.DeeperThan ⟨.plain, 1⟩ .initial := ⟨rfl, .inr rfl⟩
  obtain ⟨⟨surrounding, depth⟩, taken, same, depths⟩ := isDeeper.over? closed.taken
  simp only [StatementScan.initial, Nat.zero_add] at same depths
  subst same
  rw [StatementScan.over?_append, taken]
  rcases depths with rfl | rfl <;> rfl

theorem Closed.parenthesized
    {text : Text}
    (closed : Closed text) :
    Closed (Selector.marker ++ '(' :: (text ++ [')'])) := by
  constructor
  · have before : Quoting.outside.over (Selector.marker ++ ['(']) = .outside := by decide
    have parts : Selector.marker ++ '(' :: (text ++ [')']) =
        Selector.marker ++ ['('] ++ text ++ [')'] := by simp
    rw [parts, Quoting.over_append, Quoting.over_append, before, closed.outside]
    rfl
  · have before : StatementScan.initial.over? (Selector.marker ++ ['(']) =
        some ⟨.plain, 1⟩ := by decide
    have parts : Selector.marker ++ '(' :: (text ++ [')']) =
        Selector.marker ++ ['('] ++ (text ++ [')']) := by simp
    rw [parts, StatementScan.over?_append, before]
    exact over?_parenthesized closed

/-- What starts with a marker does not start with a comment. -/
theorem not_opensComment_marker (rest : Text) :
    ¬OpensComment ((Selector.marker ++ rest).dropWhile isGap) := by
  have start : (Selector.marker ++ rest).dropWhile isGap = Selector.marker ++ rest := rfl
  rw [start]
  rintro ⟨body, parts⟩
  cases (List.cons.inj parts).1

theorem clean_parenthesized
    {text : Text}
    (closed : Closed text)
    (unmarked : ¬HasMarker text) :
    Clean (Selector.marker ++ '(' :: (text ++ [')'])) := by
  refine ⟨closed.parenthesized, ?_, not_opensComment_marker _⟩
  rw [HasMarker, Selector.hasMarkerFrom_parenthesized_iff MarkerScan.resting_initial rfl]
  exact unmarked

/-- A closed compound that, if it is a local one, is unwrapped to a clean text
without blanks around it. -/
structure ClosedCompound (compound : Text) : Prop where
  /-- It is closed. -/
  closed : Closed compound
  /-- There are no blanks around what it is unwrapped to. -/
  trimmed : Selector.UnwrapsTrimmed compound
  /-- What it is unwrapped to is clean. -/
  unwrapped : Selector.IsLocal compound → Clean (Selector.unwrapLocals compound)

instance (compound : Text) : Decidable (ClosedCompound compound) :=
  decidable_of_iff
    (Closed compound ∧ Selector.UnwrapsTrimmed compound ∧
      (Selector.IsLocal compound → Clean (Selector.unwrapLocals compound)))
    ⟨fun ⟨closed, trimmed, unwrapped⟩ => ⟨closed, trimmed, unwrapped⟩,
      fun ⟨closed, trimmed, unwrapped⟩ => ⟨closed, trimmed, unwrapped⟩⟩

theorem clean_globalizeCompound
    {compound : Text}
    (closed : ClosedCompound compound)
    (unmarked : ¬HasMarker compound) :
    Clean (Selector.globalizeCompound compound) := by
  obtain ⟨kept, which⟩ | ⟨unwrapped, isLocal⟩ | isWrapped :=
    Selector.globalizeCompound_cases compound
  · rw [kept]
    refine ⟨closed.closed, unmarked, ?_⟩
    rcases which with rfl | ⟨rest, rfl⟩
    · simp
    · exact not_opensComment_marker rest
  · rw [unwrapped]
    exact closed.unwrapped isLocal
  · rw [isWrapped]
    exact clean_parenthesized closed.closed unmarked

/-- Globalizing closed compounds of a text without a marker gives a clean
text. -/
theorem clean_wrapped
    {text : Text}
    (unmarked : ¬HasMarker text)
    (closed : Selector.CompoundsHave ClosedCompound text) :
    Clean (Selector.wrapped text) := by
  induction text using Selector.sequence_induction with
  | whole text sequence =>
      rw [Selector.wrapped_of_whole sequence]
      exact clean_globalizeCompound (closed.of_whole sequence) unmarked
  | combined first combinator rest continues notEmpty sequence ih =>
      obtain ⟨firstClosed, restClosed⟩ := closed.of_combined sequence
      have joints : ∀ char ∈ combinator, Joint char := fun char member =>
        joint_of_continuesCombinator (continues char member)
      have parts : ¬HasMarker first ∧ ¬HasMarker rest := by
        obtain ⟨start, further, rfl⟩ := List.exists_cons_of_ne_nil notEmpty
        have separates : ∀ char ∈ further, Separates char := fun char member =>
          (joints char (List.mem_cons_of_mem _ member)).separates
        rw [List.append_assoc, List.cons_append,
          hasMarker_append_iff_of_closed firstClosed.closed (joints start List.mem_cons_self),
          Selector.hasMarker_append_iff_of_separates separates] at unmarked
        exact not_or.mp unmarked
      rw [Selector.wrapped_of_combined sequence]
      exact (clean_globalizeCompound firstClosed parts.1).append_joints joints notEmpty
        (ih parts.2 restClosed)

/-! ## What is left of a selector list -/

/-- The parts of a split selector that are globalized or left as they are leave
nothing open. -/
structure ClosedSplit (beginning : Text) (segments : List Text) : Prop where
  /-- The text before the first marker is closed. -/
  start : Closed (Text.trim beginning)
  /-- It does not start with a comment. -/
  noComment : ¬OpensComment ((Text.trim beginning).dropWhile isGap)
  /-- The compounds after a marker are closed. -/
  compounds : ∀ segment ∈ segments,
    Selector.CompoundsHave ClosedCompound (Text.trim segment)

instance (beginning : Text) (segments : List Text) :
    Decidable (ClosedSplit beginning segments) :=
  decidable_of_iff
    (Closed (Text.trim beginning) ∧ ¬OpensComment ((Text.trim beginning).dropWhile isGap) ∧
      ∀ segment ∈ segments, Selector.CompoundsHave ClosedCompound (Text.trim segment))
    ⟨fun ⟨start, noComment, compounds⟩ => ⟨start, noComment, compounds⟩,
      fun ⟨start, noComment, compounds⟩ => ⟨start, noComment, compounds⟩⟩

/-- A selector whose parts leave nothing open. -/
def ClosedParts (selector : Text) : Prop :=
  ∀ beginning segments,
    Selector.splitOnMarker selector = .segments beginning segments →
      ClosedSplit beginning segments

instance (selector : Text) : Decidable (ClosedParts selector) :=
  match split : Selector.splitOnMarker selector with
  | .nested => .isTrue fun _ _ other => by
      rw [split] at other
      cases other
  | .segments beginning segments =>
      decidable_of_iff (ClosedSplit beginning segments)
        ⟨fun closed _ _ other => by
          rw [split] at other
          cases other
          exact closed,
          fun closed => closed beginning segments split⟩

theorem clean_trim_beginning
    {selector beginning : Text}
    {segments : List Text}
    (split : Selector.splitOnMarker selector = .segments beginning segments)
    (closed : ClosedSplit beginning segments) :
    Clean (Text.trim beginning) := by
  refine ⟨closed.start, ?_, closed.noComment⟩
  rw [Selector.hasMarker_trim_iff]
  exact (Selector.not_hasMarker_of_splitFrom split).1

theorem clean_joinSegments
    {selector beginning : Text}
    {segments : List Text}
    (split : Selector.splitOnMarker selector = .segments beginning segments)
    (closed : ClosedSplit beginning segments) :
    Clean (joinSegments Selector.globalize beginning segments) := by
  unfold joinSegments
  refine clean_intercalate ?_ (List.cons_ne_nil _ _) fun text member => ?_
  · intro char member
    rw [List.mem_singleton.mp member]
    exact joint_of_isBlank (by decide)
  · rcases List.mem_cons.mp (List.mem_filter.mp member).1 with rfl | inSegments
    · exact clean_trim_beginning split closed
    · obtain ⟨segment, isSegment, rfl⟩ := List.mem_map.mp inSegments
      have compounds := closed.compounds segment isSegment
      have unwrap : Selector.CompoundsHave Selector.UnwrapsTrimmed (Text.trim segment) :=
        fun compound member => (compounds compound member).trimmed
      rw [Selector.trim_globalize unwrap]
      refine clean_wrapped ?_ compounds
      rw [Selector.hasMarker_trim_iff]
      exact (Selector.not_hasMarker_of_splitFrom split).2 segment isSegment

theorem clean_of_survive
    {selectors kept : List Text}
    (survive : Survive Selector.globalize selectors kept)
    (trimmed : ∀ selector ∈ selectors, Text.trim selector = selector)
    (closed : ∀ selector ∈ selectors, ClosedParts selector) :
    ∀ text ∈ kept, Clean text := by
  induction survive with
  | nil => simp
  | @unmarked selector rest kept plain others ih =>
      have restClean := ih (fun other member => trimmed other (List.mem_cons_of_mem _ member))
        fun other member => closed other (List.mem_cons_of_mem _ member)
      have split : Selector.splitOnMarker selector = .segments selector [] :=
        Selector.splitFrom_of_not_hasMarkerFrom plain
      have clean := clean_trim_beginning split (closed selector List.mem_cons_self _ _ split)
      rw [trimmed selector List.mem_cons_self] at clean
      exact List.forall_mem_cons.mpr ⟨clean, restClean⟩
  | lost gone others ih =>
      exact ih (fun other member => trimmed other (List.mem_cons_of_mem _ member))
        fun other member => closed other (List.mem_cons_of_mem _ member)
  | @replaced selector beginning segments rest kept marked stays split others ih =>
      have restClean := ih (fun other member => trimmed other (List.mem_cons_of_mem _ member))
        fun other member => closed other (List.mem_cons_of_mem _ member)
      have clean := clean_joinSegments split (closed selector List.mem_cons_self _ _ split)
      exact List.forall_mem_cons.mpr ⟨clean, restClean⟩

/-- The separator between the selectors of a list joins them. -/
theorem joint_of_mem_separator (list : Text) :
    (separator? list).getD [',', ' '] ≠ [] ∧
      ∀ char ∈ (separator? list).getD [',', ' '], Joint char := by
  obtain ⟨blanks, separator, blank⟩ := exists_separator_eq list
  rw [separator]
  refine ⟨List.cons_ne_nil _ _, List.forall_mem_cons.mpr ⟨?_, fun char member => ?_⟩⟩
  · exact joint_of_continuesCombinator (by decide)
  · exact joint_of_isBlank (List.all_eq_true.mp blank char member)

end Css
end ComponentPipeline
