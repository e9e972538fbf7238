import ComponentPipeline.Proofs.Selector.GlobalizedAgain
import ComponentPipeline.Proofs.Selector.MarkerPlaces
import ComponentPipeline.Proofs.Selector.UnwrappedLocals

/-!
# Sequences as they are written

A selector is written as compounds with combinators between them: runs of blanks,
`>`, `+` and `~`, which in a compound stand in strings, parentheses, brackets and
escapes only.  Globalizing finds the compounds of such a sequence if each
combinator starts with a space or a sign and no compound comes to an end early for a
scan that does not know strings.  If it finds them, it wraps, unwraps and keeps them
as their openings `:local(` and `:global(` say, unless a name merely begins like a
marker.
-/

namespace ComponentPipeline
namespace Selector

/-! ## Compounds and combinators -/

/-- The characters of combinators. -/
def isCombinatorChar (char : Char) : Bool :=
  Text.isBlank char || char == '>' || char == '+' || char == '~'

/-- A run of blanks, `>`, `+` and `~`. -/
def IsCombinator (text : Text) : Prop :=
  text ≠ [] ∧ ∀ char ∈ text, isCombinatorChar char = true

instance (text : Text) : Decidable (IsCombinator text) :=
  decidable_of_iff (text ≠ [] ∧ text.all isCombinatorChar = true)
    (and_congr_right' List.all_eq_true)

/-- Whether no parenthesis, bracket, string or escape is open. -/
def MarkerScan.isAtTop (scan : MarkerScan) : Bool :=
  scan.depth == 0 && scan.quoting == .outside

/-- Whether a text closes all that is open, and nothing else, and has no character of
a combinator while nothing is open. -/
def completesCompound (scan : MarkerScan) : Text → Bool
  | [] => scan.isAtTop
  | char :: rest =>
      !(scan.isAtTop && (isCombinatorChar char || char == ')' || char == ']')) &&
        completesCompound (scan.step char) rest

/-- A text whose parentheses and brackets are balanced outside its strings, and that
has no character of a combinator outside of all these and of escapes. -/
def IsCompound (text : Text) : Prop :=
  completesCompound .initial text = true

instance (text : Text) : Decidable (IsCompound text) :=
  inferInstanceAs (Decidable (completesCompound .initial text = true))

theorem IsCompound.not_isCombinatorChar
    {char : Char}
    {rest : Text}
    (compound : IsCompound (char :: rest)) :
    isCombinatorChar char = false := by
  have here := (Bool.and_eq_true_iff.mp compound).1
  have atTop : MarkerScan.initial.isAtTop = true := by decide
  rw [atTop] at here
  simp only [Bool.true_and, Bool.not_eq_true', Bool.or_eq_false_iff] at here
  exact here.1.1

theorem continuesCombinator_eq (char : Char) :
    continuesCombinator char = (isCombinatorChar char || char == ',') := rfl

namespace Sequence

/-- A sequence of compounds with combinators between them. -/
structure IsWritten (sequence : Sequence) : Prop where
  /-- The compounds are compounds, if only empty ones. -/
  compounds : ∀ compound ∈ sequence.compounds, IsCompound compound
  /-- The combinators are combinators. -/
  combinators : ∀ pair ∈ sequence.others, IsCombinator pair.1

/-- No two combinators meet. -/
def IsApart (sequence : Sequence) : Prop :=
  ∀ pair ∈ sequence.others.dropLast, pair.2 ≠ []

instance (sequence : Sequence) : Decidable sequence.IsApart :=
  inferInstanceAs (Decidable (∀ pair ∈ sequence.others.dropLast, pair.2 ≠ []))

/-- The scan for compounds, which does not know strings, comes to no end in a
compound and to one behind it. -/
structure IsReadable (sequence : Sequence) : Prop where
  /-- A combinator starts with a character that ends a compound. -/
  starts : ∀ pair ∈ sequence.others, ∃ char ∈ pair.1.head?, endsCompound char = true
  /-- Behind a compound with a combinator after it the scan is where it was. -/
  closed : ∀ compound ∈ sequence.compounds.dropLast,
    CompoundScan.initial.over? compound = some .initial
  /-- The last compound is one for the scan. -/
  taken : ∀ compound ∈ sequence.compounds.getLast?,
    (CompoundScan.initial.over? compound).isSome = true

section Cons

variable {first combinator compound : Text} {rest : List (Text × Text)}

theorem text_cons :
    text ⟨first, (combinator, compound) :: rest⟩ =
      first ++ combinator ++ text ⟨compound, rest⟩ := by
  simp [text]

theorem map_cons (change : Text → Text) :
    (map change ⟨first, (combinator, compound) :: rest⟩).text =
      change first ++ combinator ++ (map change ⟨compound, rest⟩).text := by
  simp [text, map]

theorem isReadable_cons_iff :
    IsReadable ⟨first, (combinator, compound) :: rest⟩ ↔
      CompoundScan.initial.over? first = some .initial ∧
        (∃ char ∈ combinator.head?, endsCompound char = true) ∧
        IsReadable ⟨compound, rest⟩ := by
  have dropped : (compounds ⟨first, (combinator, compound) :: rest⟩).dropLast =
      first :: (compounds ⟨compound, rest⟩).dropLast := rfl
  have last : (compounds ⟨first, (combinator, compound) :: rest⟩).getLast? =
      (compounds ⟨compound, rest⟩).getLast? := List.getLast?_cons_cons
  constructor
  · rintro ⟨starts, closed, taken⟩
    rw [dropped] at closed
    rw [last] at taken
    obtain ⟨startsHere, startsLater⟩ := List.forall_mem_cons.mp starts
    obtain ⟨closedHere, closedLater⟩ := List.forall_mem_cons.mp closed
    exact ⟨closedHere, startsHere, startsLater, closedLater, taken⟩
  · rintro ⟨closedHere, startsHere, startsLater, closedLater, taken⟩
    refine ⟨List.forall_mem_cons.mpr ⟨startsHere, startsLater⟩, ?_, ?_⟩
    · rw [dropped]
      exact List.forall_mem_cons.mpr ⟨closedHere, closedLater⟩
    · rw [last]
      exact taken

theorem isReadable_of_whole
    {final : CompoundScan}
    (taken : CompoundScan.initial.over? first = some final) :
    IsReadable ⟨first, []⟩ where
  starts := by simp
  closed := by simp [compounds]
  taken := by
    rintro _ ⟨⟩
    change (CompoundScan.initial.over? first).isSome = true
    rw [taken]
    rfl

theorem IsReadable.isSome_first
    {others : List (Text × Text)}
    (readable : IsReadable ⟨first, others⟩) :
    (CompoundScan.initial.over? first).isSome = true := by
  cases others with
  | nil => exact readable.taken first rfl
  | cons pair rest =>
      rw [(isReadable_cons_iff.mp readable).1]
      rfl

theorem IsWritten.tail
    (written : IsWritten ⟨first, (combinator, compound) :: rest⟩) :
    IsWritten ⟨compound, rest⟩ :=
  ⟨fun other member => written.compounds other (List.mem_cons_of_mem _ member),
    fun pair member => written.combinators pair (List.mem_cons_of_mem _ member)⟩

end Cons

/-! ## Finding the compounds -/

/-- Of any text the compounds are found where the scan ends. -/
theorem isReadable_sequenceOf (text : Text) : (sequenceOf text).IsReadable := by
  induction text using separated_induction with
  | whole text final taken =>
      rw [sequenceOf_of_over? taken]
      exact isReadable_of_whole taken
  | separated first combinator rest separated ih =>
      obtain ⟨char, others, parts, ends⟩ := separated.starts
      rw [separated.sequenceOf_eq, isReadable_cons_iff]
      exact ⟨separated.taken, ⟨char, by rw [parts]; rfl, ends⟩, ih⟩

/-- A compound that is one for the scan as well does not go on with a combinator
before it. -/
theorem not_continuesCombinator_of_isSome
    {char : Char}
    {rest : Text}
    (isCompound : IsCompound (char :: rest))
    (taken : (CompoundScan.initial.over? (char :: rest)).isSome = true) :
    continuesCombinator char = false := by
  rw [continuesCombinator_eq, isCompound.not_isCombinatorChar, Bool.false_or,
    beq_eq_false_iff_ne]
  rintro rfl
  cases taken

theorem separated_of_isReadable
    {first combinator compound : Text}
    {rest : List (Text × Text)}
    (written : IsWritten ⟨first, (combinator, compound) :: rest⟩)
    (readable : IsReadable ⟨first, (combinator, compound) :: rest⟩)
    (apart : rest ≠ [] → compound ≠ []) :
    Separated first combinator (text ⟨compound, rest⟩) := by
  obtain ⟨closed, ⟨char, isFirst, ends⟩, readableLater⟩ := isReadable_cons_iff.mp readable
  obtain ⟨notEmpty, isCombinator⟩ := written.combinators _ List.mem_cons_self
  refine ⟨closed, ?_, ?_, ?_⟩
  · cases combinator with
    | nil => cases isFirst
    | cons start others =>
        cases isFirst
        exact ⟨char, others, rfl, ends⟩
  · intro other member
    rw [continuesCombinator_eq, isCombinator other member, Bool.true_or]
  · intro next isNext
    cases compound with
    | nil =>
        have none : rest = [] := by
          by_contra some
          exact apart some rfl
        rw [none] at isNext
        cases isNext
    | cons start others =>
        cases isNext
        exact not_continuesCombinator_of_isSome
          (written.tail.compounds _ List.mem_cons_self) readableLater.isSome_first

/-- The compounds of a sequence are found exactly if it is readable. -/
theorem sequenceOf_text_iff
    {sequence : Sequence}
    (written : sequence.IsWritten)
    (apart : sequence.IsApart) :
    sequenceOf sequence.text = sequence ↔ sequence.IsReadable := by
  constructor
  · intro found
    rw [← found]
    exact isReadable_sequenceOf sequence.text
  · intro readable
    obtain ⟨first, others⟩ := sequence
    induction others generalizing first with
    | nil =>
        obtain ⟨final, taken⟩ := Option.isSome_iff_exists.mp readable.isSome_first
        have alone : text ⟨first, []⟩ = first := by simp [text]
        rw [alone]
        exact sequenceOf_of_over? taken
    | cons pair rest ih =>
        obtain ⟨combinator, compound⟩ := pair
        have separated := separated_of_isReadable written readable (by
          intro some
          obtain ⟨next, further, rfl⟩ := List.exists_cons_of_ne_nil some
          exact apart _ List.mem_cons_self)
        have apartLater : IsApart ⟨compound, rest⟩ := by
          intro pair member
          cases rest with
          | nil => cases member
          | cons next further => exact apart pair (List.mem_cons_of_mem _ member)
        rw [text_cons, separated.sequenceOf_eq,
          ih compound written.tail apartLater (isReadable_cons_iff.mp readable).2.2]

/-! ## Globalizing the compounds -/

/-- Two combinators that meet are one. -/
theorem IsWritten.joined
    {first combinator next compound : Text}
    {rest : List (Text × Text)}
    (written : IsWritten ⟨first, (combinator, []) :: (next, compound) :: rest⟩) :
    IsWritten ⟨first, (combinator ++ next, compound) :: rest⟩ := by
  obtain ⟨notEmpty, isCombinator⟩ := written.combinators _ List.mem_cons_self
  obtain ⟨-, isNext⟩ := written.tail.combinators _ List.mem_cons_self
  constructor
  · intro other member
    rcases List.mem_cons.mp member with rfl | later
    · exact written.compounds _ List.mem_cons_self
    · exact written.tail.tail.compounds other later
  · refine List.forall_mem_cons.mpr ⟨⟨List.append_ne_nil_of_left_ne_nil notEmpty _, ?_⟩,
      written.tail.tail.combinators⟩
    intro char member
    rcases List.mem_append.mp member with inFirst | inNext
    · exact isCombinator char inFirst
    · exact isNext char inNext

theorem IsReadable.joined
    {first combinator next compound : Text}
    {rest : List (Text × Text)}
    (readable : IsReadable ⟨first, (combinator, []) :: (next, compound) :: rest⟩) :
    IsReadable ⟨first, (combinator ++ next, compound) :: rest⟩ := by
  obtain ⟨closed, ⟨char, isFirst, ends⟩, readableLater⟩ := isReadable_cons_iff.mp readable
  have isFirst' : char ∈ (combinator ++ next).head? := by
    rw [List.head?_append, isFirst]
    rfl
  exact isReadable_cons_iff.mpr
    ⟨closed, ⟨char, isFirst', ends⟩, (isReadable_cons_iff.mp readableLater).2.2⟩

/-- Of a readable sequence the compounds are globalized. -/
theorem wrapped_text
    (first : Text)
    (others : List (Text × Text))
    (written : IsWritten ⟨first, others⟩)
    (readable : IsReadable ⟨first, others⟩) :
    wrapped (text ⟨first, others⟩) = (map globalizeCompound ⟨first, others⟩).text := by
  match others with
  | [] =>
      obtain ⟨final, taken⟩ := Option.isSome_iff_exists.mp readable.isSome_first
      have alone (text : Text) : Sequence.text ⟨text, []⟩ = text := by simp [Sequence.text]
      rw [alone, wrapped_of_over? taken]
      exact (alone _).symm
  | [(combinator, compound)] =>
      have separated := separated_of_isReadable written readable fun some => absurd rfl some
      rw [text_cons, separated.wrapped_eq, map_cons,
        wrapped_text compound [] written.tail (isReadable_cons_iff.mp readable).2.2]
  | (combinator, []) :: (next, compound) :: rest =>
      have joined := wrapped_text first ((combinator ++ next, compound) :: rest)
        written.joined readable.joined
      have emptyKept : globalizeCompound [] = [] := rfl
      simp only [text_cons, map_cons, emptyKept, List.append_assoc] at joined ⊢
      exact joined
  | (combinator, char :: compound) :: next :: rest =>
      have separated := separated_of_isReadable written readable
        fun _ => List.cons_ne_nil char compound
      rw [text_cons, separated.wrapped_eq, map_cons,
        wrapped_text (char :: compound) (next :: rest) written.tail
          (isReadable_cons_iff.mp readable).2.2]
termination_by others.length

/-! ## Two ways to change the compounds -/

section Map

variable {change change' : Text → Text}
  (le : ∀ compound, (change compound).length ≤ (change' compound).length)

include le

theorem length_text_map_le (sequence : Sequence) :
    (sequence.map change).text.length ≤ (sequence.map change').text.length := by
  obtain ⟨first, others⟩ := sequence
  induction others generalizing first with
  | nil => simpa [map, text] using le first
  | cons pair rest ih =>
      obtain ⟨combinator, compound⟩ := pair
      have here := le first
      have later := ih compound
      rw [map_cons, map_cons]
      simp only [List.length_append]
      omega

/-- If one way never gives a longer compound than the other, the texts are the same
only if each compound is. -/
theorem text_map_eq_iff (sequence : Sequence) :
    (sequence.map change).text = (sequence.map change').text ↔
      ∀ compound ∈ sequence.compounds, change compound = change' compound := by
  obtain ⟨first, others⟩ := sequence
  induction others generalizing first with
  | nil => simp [map, text, compounds]
  | cons pair rest ih =>
      obtain ⟨combinator, compound⟩ := pair
      have members : compounds ⟨first, (combinator, compound) :: rest⟩ =
          first :: compounds ⟨compound, rest⟩ := rfl
      rw [map_cons, map_cons, members, List.forall_mem_cons, ← ih compound]
      constructor
      · intro same
        have lengths := congrArg List.length same
        have here := le first
        have later := length_text_map_le le ⟨compound, rest⟩
        simp only [List.length_append] at lengths
        obtain ⟨sameFront, sameRest⟩ := List.append_inj same (by
          simp only [List.length_append]
          omega)
        exact ⟨List.append_cancel_right sameFront, sameRest⟩
      · rintro ⟨sameFirst, sameRest⟩
        rw [sameFirst, sameRest]

end Map

end Sequence

/-! ## Compounds by their openings -/

/-- What opens a compound that is wrapped. -/
def globalOpening : Text := marker ++ ['(']

/-- A compound, globalized as its opening says: one that starts with `:global(` is
kept, one that starts with `:local(` is unwrapped, and any other is wrapped. -/
def globalizeByOpening (compound : Text) : Text :=
  if compound.isEmpty || Text.startsWith globalOpening compound then compound
  else if Text.startsWith localOpening compound then unwrapLocals compound
  else marker ++ '(' :: (compound ++ [')'])

/-- A compound that starts with a parenthesis behind the marker's name if it starts
with that name. -/
def OpensMarkers (compound : Text) : Prop :=
  (marker <+: compound → globalOpening <+: compound) ∧
    (IsLocal compound → localOpening <+: compound)

instance (compound : Text) : Decidable (OpensMarkers compound) :=
  inferInstanceAs (Decidable ((marker <+: compound → globalOpening <+: compound) ∧
    (IsLocal compound → localOpening <+: compound)))

theorem not_isLocal_of_marker
    {compound : Text}
    (marked : marker <+: compound) :
    ¬IsLocal compound := by
  intro isLocal
  have within := List.prefix_of_prefix_length_le isLocal marked (by decide)
  exact absurd within (by decide)

section Opening

variable {compound : Text}

theorem globalizeByOpening_of_global
    (opened : globalOpening <+: compound) :
    globalizeByOpening compound = compound := by
  rw [globalizeByOpening, Text.startsWith_eq_true_iff.mpr opened, Bool.or_true, if_pos rfl]

theorem globalizeByOpening_of_local
    (opened : localOpening <+: compound) :
    globalizeByOpening compound = unwrapLocals compound := by
  obtain ⟨rest, rfl⟩ := opened
  rfl

theorem globalizeByOpening_of_other
    (notEmpty : compound ≠ [])
    (notGlobal : ¬globalOpening <+: compound)
    (notLocal : ¬localOpening <+: compound) :
    globalizeByOpening compound = marker ++ '(' :: (compound ++ [')']) := by
  rw [globalizeByOpening, Text.startsWith_eq_false_iff.mpr notGlobal,
    Text.startsWith_eq_false_iff.mpr notLocal, List.isEmpty_eq_false_iff.mpr notEmpty]
  rfl

theorem globalizeCompound_of_marker
    (marked : marker <+: compound) :
    globalizeCompound compound = compound := by
  rw [globalizeCompound, Text.startsWith_eq_true_iff.mpr marked, Bool.or_true, if_pos rfl]

theorem globalizeCompound_of_isLocal
    (isLocal : IsLocal compound) :
    globalizeCompound compound = unwrapLocals compound := by
  obtain ⟨rest, rfl⟩ := isLocal
  rfl

theorem globalizeCompound_of_other
    (notEmpty : compound ≠ [])
    (notMarked : ¬marker <+: compound)
    (notLocal : ¬IsLocal compound) :
    globalizeCompound compound = marker ++ '(' :: (compound ++ [')']) := by
  have isNotLocal : Text.startsWith ":local" compound = false :=
    Text.startsWith_eq_false_iff.mpr notLocal
  rw [globalizeCompound, Text.startsWith_eq_false_iff.mpr notMarked, isNotLocal,
    List.isEmpty_eq_false_iff.mpr notEmpty]
  rfl

end Opening

/-- A compound is globalized as its opening says, unless it begins like a marker; then
what it becomes is too short. -/
theorem globalizeCompound_cases_of_opening (compound : Text) :
    (OpensMarkers compound ∧ globalizeCompound compound = globalizeByOpening compound) ∨
      (¬OpensMarkers compound ∧
        (globalizeCompound compound).length < (globalizeByOpening compound).length) := by
  by_cases empty : compound = []
  · subst empty
    exact .inl ⟨by decide, rfl⟩
  have globalMarks : globalOpening <+: compound → marker <+: compound :=
    (List.prefix_append marker ['(']).trans
  have localMarks : localOpening <+: compound → IsLocal compound :=
    List.IsPrefix.trans ⟨['('], rfl⟩
  by_cases marked : marker <+: compound
  · have notLocal := not_isLocal_of_marker marked
    rw [globalizeCompound_of_marker marked]
    by_cases opened : globalOpening <+: compound
    · exact .inl ⟨⟨fun _ => opened, fun isLocal => absurd isLocal notLocal⟩,
        (globalizeByOpening_of_global opened).symm⟩
    · refine .inr ⟨fun opens => opened (opens.1 marked), ?_⟩
      rw [globalizeByOpening_of_other empty opened (mt localMarks notLocal)]
      simp only [List.length_append, List.length_cons]
      omega
  · by_cases isLocal : IsLocal compound
    · rw [globalizeCompound_of_isLocal isLocal]
      by_cases opened : localOpening <+: compound
      · exact .inl ⟨⟨fun isMarked => absurd isMarked marked, fun _ => opened⟩,
          (globalizeByOpening_of_local opened).symm⟩
      · refine .inr ⟨fun opens => opened (opens.2 isLocal), ?_⟩
        have shorter := length_unwrapLocals_le compound
        rw [globalizeByOpening_of_other empty (mt globalMarks marked) opened]
        simp only [List.length_append, List.length_cons]
        omega
    · refine .inl ⟨⟨fun isMarked => absurd isMarked marked, fun isLoc => absurd isLoc isLocal⟩, ?_⟩
      rw [globalizeCompound_of_other empty marked isLocal,
        globalizeByOpening_of_other empty (mt globalMarks marked) (mt localMarks isLocal)]

theorem globalizeCompound_eq_iff {compound : Text} :
    globalizeCompound compound = globalizeByOpening compound ↔ OpensMarkers compound := by
  rcases globalizeCompound_cases_of_opening compound with ⟨opens, same⟩ | ⟨begins, shorter⟩
  · exact ⟨fun _ => opens, fun _ => same⟩
  · refine ⟨fun same => ?_, fun opens => absurd opens begins⟩
    rw [same] at shorter
    exact absurd shorter (Nat.lt_irrefl _)

theorem length_globalizeCompound_le (compound : Text) :
    (globalizeCompound compound).length ≤ (globalizeByOpening compound).length := by
  rcases globalizeCompound_cases_of_opening compound with ⟨-, same⟩ | ⟨-, shorter⟩
  · exact Nat.le_of_eq (congrArg List.length same)
  · exact Nat.le_of_lt shorter

/-! ## Selectors -/

/-- The compounds of a written sequence are found exactly if it is readable, and then
they are globalized as their openings say exactly if none of them begins like a marker
without being one. -/
theorem globalize_of_isWritten
    {sequence : Sequence}
    (written : sequence.IsWritten) :
    (sequence.IsApart →
      (sequenceOf sequence.text = sequence ↔ sequence.IsReadable)) ∧
    (sequence.IsReadable → ∀ selector, Text.trim selector = sequence.text →
      (globalize selector = (sequence.map globalizeByOpening).text ↔
        ∀ compound ∈ sequence.compounds, OpensMarkers compound)) := by
  refine ⟨Sequence.sequenceOf_text_iff written, fun readable selector trimmed => ?_⟩
  have globalized : globalize selector = (sequence.map globalizeCompound).text := by
    have found := Sequence.wrapped_text sequence.first sequence.others written readable
    rw [← found, ← trimmed]
    rfl
  rw [globalized, Sequence.text_map_eq_iff length_globalizeCompound_le]
  simp only [globalizeCompound_eq_iff]

/-- A sequence that starts with a combinator, with strings in brackets, escapes, and
compounds that are kept and unwrapped. -/
def mixedSample : Sequence where
  first := []
  others := [("> ", "a[b='c \\' d']"), (" ~\n", ":global(e, f)"), ("+", ":local(.g)"),
    (" \u00a0", "h\\ i:not(j k)")]

theorem globalize_of_isWritten_mixedSample :
    mixedSample.IsWritten ∧ mixedSample.IsApart ∧ mixedSample.IsReadable ∧
      (∀ compound ∈ mixedSample.compounds, OpensMarkers compound) ∧
      sequenceOf mixedSample.text = mixedSample ∧
      Text.trim ("\n" ++ mixedSample.text) = mixedSample.text ∧
      (mixedSample.map globalizeByOpening).text =
        ("> :global(a[b='c \\' d']) ~\n:global(e, f)+.g \u00a0:global(h\\ i:not(j k))" : Text) ∧
      globalize ("\n" ++ mixedSample.text) = (mixedSample.map globalizeByOpening).text := by
  have written : mixedSample.IsWritten := ⟨by decide +kernel, by decide +kernel⟩
  have apart : mixedSample.IsApart := by decide +kernel
  have readable : mixedSample.IsReadable :=
    ⟨by simp [mixedSample, endsCompound], by decide +kernel, by decide +kernel⟩
  have opens : ∀ compound ∈ mixedSample.compounds, OpensMarkers compound := by decide +kernel
  have trimmed : Text.trim ("\n" ++ mixedSample.text) = mixedSample.text := by decide +kernel
  obtain ⟨found, globalized⟩ := globalize_of_isWritten written
  exact ⟨written, apart, readable, opens, (found apart).mpr readable, trimmed, by decide +kernel,
    (globalized readable _ trimmed).mpr opens⟩

/-- A local compound and another one on the next line. -/
def twoLinesSample : Sequence where
  first := ":local(.a)"
  others := [("\n", ".b")]

/-- The compounds of a written sequence are not always globalized as their openings
say: a line feed does not end a compound, so what follows it is not wrapped. -/
theorem globalize_not_always_by_openings :
    ¬∀ (sequence : Sequence) (selector : Text), sequence.IsWritten →
      Text.trim selector = sequence.text →
        globalize selector = (sequence.map globalizeByOpening).text := by
  intro byOpenings
  have written : twoLinesSample.IsWritten := ⟨by decide +kernel, by decide +kernel⟩
  have trimmed : Text.trim twoLinesSample.text = twoLinesSample.text := by decide +kernel
  have same := byOpenings twoLinesSample twoLinesSample.text written trimmed
  have globalized : globalize twoLinesSample.text = (".a\n.b" : Text) := by decide +kernel
  have stated : (twoLinesSample.map globalizeByOpening).text = (".a\n:global(.b)" : Text) := by
    decide +kernel
  rw [globalized, stated] at same
  exact absurd same (by decide)

end Selector
end ComponentPipeline
