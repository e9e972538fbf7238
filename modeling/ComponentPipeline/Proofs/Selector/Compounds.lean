import ComponentPipeline.Proofs.Selector.CompoundScan
import ComponentPipeline.Proofs.Text.Searching
import ComponentPipeline.Proofs.Text.Trimming

/-!
# Compounds and what globalizing makes of them

A text is its first compound, or that and a combinator and a text that is a
sequence again.  Globalizing keeps the first and the last character of a text or
puts others there that are no blanks, so that a globalized selector has no
blanks around it; only for local compounds this depends on what they enclose.
-/

namespace ComponentPipeline
namespace Selector

/-- The compounds of a sequence. -/
def Sequence.compounds (sequence : Sequence) : List Text :=
  sequence.first :: sequence.others.map Prod.snd

theorem continuesCombinator_of_endsCompound
    {char : Char}
    (ends : endsCompound char = true) :
    continuesCombinator char = true := by
  simp only [endsCompound, Bool.or_eq_true, beq_iff_eq] at ends
  rcases ends with (((rfl | rfl) | rfl) | rfl) | rfl <;> decide

theorem sequenceOf_of_none_left
    {text : Text}
    (left : (cutCompound .initial text).2 = []) :
    sequenceOf text = ⟨text, []⟩ := by
  have parts := cutCompound_append .initial text
  rw [left, List.append_nil] at parts
  rw [sequenceOf]
  dsimp only
  split
  · rw [parts]
  · rename_i char rest behind
    cases left.symm.trans behind

theorem sequenceOf_of_left
    {text rest : Text}
    {char : Char}
    (left : (cutCompound .initial text).2 = char :: rest) :
    sequenceOf text =
      ⟨(cutCompound .initial text).1,
        (char :: rest.takeWhile continuesCombinator,
          (sequenceOf (rest.dropWhile continuesCombinator)).first) ::
          (sequenceOf (rest.dropWhile continuesCombinator)).others⟩ := by
  rw [sequenceOf]
  dsimp only
  split
  · rename_i none
    cases left.symm.trans none
  · rename_i other others behind
    cases left.symm.trans behind
    rfl

/-- A text that lies in a compound is one. -/
theorem sequenceOf_of_over?
    {text : Text}
    {final : CompoundScan}
    (taken : CompoundScan.initial.over? text = some final) :
    sequenceOf text = ⟨text, []⟩ := by
  apply sequenceOf_of_none_left
  have cut := cutCompound_of_over? taken []
  rw [List.append_nil] at cut
  rw [cut]
  rfl

/-- A compound, a combinator and what follows them. -/
structure Separated (first combinator rest : Text) : Prop where
  /-- The compound may end where it does. -/
  taken : CompoundScan.initial.over? first = some .initial
  /-- The combinator ends the compound. -/
  starts : ∃ char others, combinator = char :: others ∧ endsCompound char = true
  /-- The combinator has nothing else in it. -/
  continues : ∀ char ∈ combinator, continuesCombinator char = true
  /-- The combinator ends where it does. -/
  stops : ∀ char, rest.head? = some char → continuesCombinator char = false

theorem Separated.sequenceOf_eq
    {first combinator rest : Text}
    (separated : Separated first combinator rest) :
    sequenceOf (first ++ combinator ++ rest) =
      ⟨first, (combinator, (sequenceOf rest).first) :: (sequenceOf rest).others⟩ := by
  obtain ⟨taken, ⟨char, others, rfl, ends⟩, continues, stops⟩ := separated
  have endsHere : CompoundScan.initial.endsAt char = true := ends
  have cut : cutCompound .initial (first ++ (char :: others) ++ rest) =
      (first, char :: (others ++ rest)) := by
    rw [List.append_assoc, cutCompound_of_over? taken, List.cons_append, cutCompound,
      if_pos endsHere, List.append_nil]
  have othersContinue : ∀ other ∈ others, continuesCombinator other = true :=
    fun other member => continues other (List.mem_cons_of_mem _ member)
  have noneFurther : rest.takeWhile continuesCombinator = [] ∧
      rest.dropWhile continuesCombinator = rest := by
    cases rest with
    | nil => exact ⟨rfl, rfl⟩
    | cons next further =>
        have stopsHere := Bool.eq_false_iff.mp (stops next rfl)
        rw [List.takeWhile_cons, List.dropWhile_cons, if_neg stopsHere, if_neg stopsHere]
        exact ⟨rfl, rfl⟩
  rw [sequenceOf_of_left (congrArg Prod.snd cut), cut,
    List.takeWhile_append_of_pos othersContinue, List.dropWhile_append_of_pos othersContinue,
    noneFurther.1, noneFurther.2, List.append_nil]

/-- A property of texts that goes from what follows a combinator to the whole
text, and that compounds have, holds of all texts. -/
theorem separated_induction
    {holds : Text → Prop}
    (whole : ∀ text final, CompoundScan.initial.over? text = some final → holds text)
    (separated : ∀ first combinator rest,
      Separated first combinator rest → holds rest → holds (first ++ combinator ++ rest))
    (text : Text) :
    holds text := by
  have cut := cutCompound_append .initial text
  obtain ⟨final, taken, ends⟩ := exists_over?_cutCompound .initial text
  generalize (cutCompound .initial text).1 = first at cut taken
  cases left : (cutCompound .initial text).2 with
  | nil =>
      rw [left, List.append_nil] at cut
      rw [cut] at taken
      exact whole text final taken
  | cons char others =>
      rw [left] at cut ends
      obtain ⟨rfl, endsHere⟩ := CompoundScan.eq_initial_of_endsAt (ends char rfl)
      have parts : first ++ (char :: others.takeWhile continuesCombinator) ++
          others.dropWhile continuesCombinator = text := by
        rw [List.append_assoc, List.cons_append, List.takeWhile_append_dropWhile]
        exact cut
      have shorter : (others.dropWhile continuesCombinator).length < text.length := by
        have bound := (List.dropWhile_suffix continuesCombinator (l := others)).length_le
        have lengths := congrArg List.length cut
        rw [List.length_append, List.length_cons] at lengths
        omega
      have later := separated_induction whole separated
        (others.dropWhile continuesCombinator)
      rw [← parts]
      refine separated first _ _ ⟨taken, ⟨char, _, rfl, endsHere⟩, ?_, ?_⟩ later
      · intro other member
        rcases List.mem_cons.mp member with rfl | inside
        · exact continuesCombinator_of_endsCompound endsHere
        · exact List.all_eq_true.mp List.all_takeWhile other inside
      · intro next isNext
        have stops := List.head?_dropWhile_not continuesCombinator others
        rw [isNext] at stops
        exact stops
termination_by text.length

/-- A property of texts that goes from what follows a combinator to the whole
text holds of all texts. -/
theorem sequence_induction
    {holds : Text → Prop}
    (whole : ∀ text, sequenceOf text = ⟨text, []⟩ → holds text)
    (combined : ∀ first combinator rest,
      (∀ char ∈ combinator, continuesCombinator char = true) → combinator ≠ [] →
      sequenceOf (first ++ combinator ++ rest) =
        ⟨first, (combinator, (sequenceOf rest).first) :: (sequenceOf rest).others⟩ →
      holds rest → holds (first ++ combinator ++ rest))
    (text : Text) :
    holds text := by
  induction text using separated_induction with
  | whole text final taken => exact whole text (sequenceOf_of_over? taken)
  | separated first combinator rest separated later =>
      obtain ⟨char, others, parts, -⟩ := separated.starts
      have notEmpty : combinator ≠ [] := by
        rw [parts]
        exact List.cons_ne_nil char others
      exact combined first combinator rest separated.continues notEmpty
        separated.sequenceOf_eq later

/-! ## Globalized compounds -/

/-- A text with every compound globalized; globalizing a selector is this after
trimming. -/
def wrapped (text : Text) : Text :=
  ((sequenceOf text).map globalizeCompound).text

theorem wrapped_of_whole
    {text : Text}
    (sequence : sequenceOf text = ⟨text, []⟩) :
    wrapped text = globalizeCompound text := by
  rw [wrapped, sequence]
  simp [Sequence.map, Sequence.text]

theorem wrapped_of_combined
    {first combinator rest : Text}
    (sequence : sequenceOf (first ++ combinator ++ rest) =
      ⟨first, (combinator, (sequenceOf rest).first) :: (sequenceOf rest).others⟩) :
    wrapped (first ++ combinator ++ rest) =
      globalizeCompound first ++ combinator ++ wrapped rest := by
  rw [wrapped, sequence]
  simp [Sequence.map, Sequence.text, wrapped]

/-- A compound that starts with `:local`. -/
abbrev IsLocal (compound : Text) : Prop :=
  [':', 'l', 'o', 'c', 'a', 'l'] <+: compound

/-- A compound stays as it is, is unwrapped or is wrapped. -/
theorem globalizeCompound_cases (compound : Text) :
    (globalizeCompound compound = compound ∧ (compound = [] ∨ marker <+: compound)) ∨
      (globalizeCompound compound = unwrapLocals compound ∧ IsLocal compound) ∨
      globalizeCompound compound = marker ++ '(' :: (compound ++ [')']) := by
  unfold globalizeCompound
  split
  · rename_i kept
    left
    refine ⟨rfl, ?_⟩
    rcases Bool.or_eq_true_iff.mp kept with empty | marked
    · exact .inl (List.isEmpty_iff.mp empty)
    · exact .inr (Text.startsWith_eq_true_iff.mp marked)
  · right
    split
    · rename_i opensLocal
      exact .inl ⟨rfl, Text.startsWith_eq_true_iff.mp opensLocal⟩
    · exact .inr rfl

/-- A compound that, if it is a local one, is unwrapped to a text that is not
empty and has no blanks around it. -/
def UnwrapsTrimmed (compound : Text) : Prop :=
  IsLocal compound →
    unwrapLocals compound ≠ [] ∧ Text.trim (unwrapLocals compound) = unwrapLocals compound

instance (compound : Text) : Decidable (UnwrapsTrimmed compound) :=
  inferInstanceAs (Decidable (IsLocal compound →
    unwrapLocals compound ≠ [] ∧ Text.trim (unwrapLocals compound) = unwrapLocals compound))

/-- The compounds of a text have a property. -/
def CompoundsHave (holds : Text → Prop) (text : Text) : Prop :=
  ∀ compound ∈ (sequenceOf text).compounds, holds compound

instance (holds : Text → Prop) [DecidablePred holds] (text : Text) :
    Decidable (CompoundsHave holds text) :=
  inferInstanceAs (Decidable (∀ compound ∈ (sequenceOf text).compounds, holds compound))

theorem CompoundsHave.of_whole
    {holds : Text → Prop}
    {text : Text}
    (sequence : sequenceOf text = ⟨text, []⟩)
    (compounds : CompoundsHave holds text) :
    holds text := by
  rw [CompoundsHave, sequence] at compounds
  exact compounds text List.mem_cons_self

theorem CompoundsHave.of_combined
    {holds : Text → Prop}
    {first combinator rest : Text}
    (sequence : sequenceOf (first ++ combinator ++ rest) =
      ⟨first, (combinator, (sequenceOf rest).first) :: (sequenceOf rest).others⟩)
    (compounds : CompoundsHave holds (first ++ combinator ++ rest)) :
    holds first ∧ CompoundsHave holds rest := by
  rw [CompoundsHave, sequence] at compounds
  refine ⟨compounds first List.mem_cons_self, fun compound member => ?_⟩
  exact compounds compound (List.mem_cons_of_mem _ member)

/-! ## The ends of a wrapped text -/

/-- A text starts and ends as another one does, or not with blanks. -/
structure KeepsEnds (text result : Text) : Prop where
  /-- Only an empty text becomes empty. -/
  empty : result = [] → text = []
  /-- The first character is kept, or it is no blank. -/
  first : ∀ char, result.head? = some char →
    text.head? = some char ∨ Text.isBlank char = false
  /-- The last character is kept, or it is no blank. -/
  last : ∀ char, result.getLast? = some char →
    text.getLast? = some char ∨ Text.isBlank char = false

theorem keepsEnds_of_trim
    {text result : Text}
    (notEmpty : result ≠ [])
    (trimmed : Text.trim result = result) :
    KeepsEnds text result := by
  rw [← trimmed] at notEmpty ⊢
  exact ⟨fun empty => absurd empty notEmpty,
    fun _ first => .inr (Text.not_isBlank_of_head?_trim first),
    fun _ last => .inr (Text.not_isBlank_of_getLast?_trimEnd last)⟩

theorem keepsEnds_globalizeCompound
    {compound : Text}
    (unwraps : UnwrapsTrimmed compound) :
    KeepsEnds compound (globalizeCompound compound) := by
  obtain ⟨kept, -⟩ | ⟨unwrapped, isLocal⟩ | isWrapped := globalizeCompound_cases compound
  · rw [kept]
    exact ⟨id, fun _ => .inl, fun _ => .inl⟩
  · rw [unwrapped]
    exact keepsEnds_of_trim (unwraps isLocal).1 (unwraps isLocal).2
  · rw [isWrapped]
    refine keepsEnds_of_trim (List.cons_ne_nil _ _) (Text.trim_eq_self ?_ ?_)
    · rintro char first
      cases first
      decide
    · intro char last
      have parts : marker ++ '(' :: (compound ++ [')']) =
          (marker ++ '(' :: compound) ++ [')'] := by simp
      rw [parts, List.getLast?_concat] at last
      cases last
      decide

theorem KeepsEnds.append
    {first first' second second' between : Text}
    (firstKeeps : KeepsEnds first first')
    (notEmpty : between ≠ [])
    (secondKeeps : KeepsEnds second second') :
    KeepsEnds (first ++ between ++ second) (first' ++ between ++ second') := by
  refine ⟨fun empty => ?_, fun char isFirst => ?_, fun char isLast => ?_⟩
  · simp [notEmpty] at empty
  · rw [List.append_assoc, List.head?_append] at isFirst ⊢
    cases first' with
    | nil =>
        obtain ⟨start, further, rfl⟩ := List.exists_cons_of_ne_nil notEmpty
        rw [firstKeeps.empty rfl]
        exact .inl isFirst
    | cons opening others =>
        rcases firstKeeps.first char isFirst with same | colon
        · rw [same]
          exact .inl rfl
        · exact .inr colon
  · rw [List.getLast?_append] at isLast ⊢
    cases secondIs : second'.getLast? with
    | none =>
        rw [List.getLast?_eq_none_iff] at secondIs
        rw [secondIs, List.getLast?_nil, Option.none_or, List.getLast?_append,
          List.getLast?_eq_some_getLast notEmpty] at isLast
        rw [secondKeeps.empty secondIs, List.getLast?_nil, Option.none_or, List.getLast?_append,
          List.getLast?_eq_some_getLast notEmpty]
        exact .inl isLast
    | some closing =>
        rw [secondIs] at isLast
        cases isLast
        rcases secondKeeps.last char secondIs with same | parenthesis
        · rw [same]
          exact .inl rfl
        · exact .inr parenthesis

theorem keepsEnds_wrapped
    {text : Text}
    (unwrap : CompoundsHave UnwrapsTrimmed text) :
    KeepsEnds text (wrapped text) := by
  induction text using sequence_induction with
  | whole text sequence =>
      rw [wrapped_of_whole sequence]
      exact keepsEnds_globalizeCompound (unwrap.of_whole sequence)
  | combined first combinator rest continues notEmpty sequence ih =>
      obtain ⟨firstUnwraps, restUnwrap⟩ := unwrap.of_combined sequence
      rw [wrapped_of_combined sequence]
      exact (keepsEnds_globalizeCompound firstUnwraps).append notEmpty (ih restUnwrap)

/-- A globalized selector has no blanks around it. -/
theorem trim_globalize
    {selector : Text}
    (unwrap : CompoundsHave UnwrapsTrimmed (Text.trim selector)) :
    Text.trim (globalize selector) = globalize selector := by
  have keeps : KeepsEnds (Text.trim selector) (globalize selector) := keepsEnds_wrapped unwrap
  apply Text.trim_eq_self
  · intro char first
    rcases keeps.first char first with same | notBlank
    · exact Text.not_isBlank_of_head?_trim same
    · exact notBlank
  · intro char last
    rcases keeps.last char last with same | notBlank
    · exact Text.not_isBlank_of_getLast?_trimEnd same
    · exact notBlank

end Selector
end ComponentPipeline
