import ComponentPipeline.Proofs.Selector.Compounds

/-!
# Globalizing a globalized selector

A selector without local compounds is globalized once and for all.  Its
compounds start with the marker afterwards and are kept, provided that the same
ones are found again.  They are: what is put around a compound opens one
parenthesis more, so no compound ends earlier than it did, and closes it, so
that each ends where it did.  This holds of any nesting, closed or not, and
behind any escape, since a compound that leaves one open is the last one.
-/

namespace ComponentPipeline
namespace Selector

/-- A compound that does not start with `:local`. -/
abbrev NotLocal (compound : Text) : Prop :=
  ¬IsLocal compound

section Compound

variable {compound : Text} (notLocal : NotLocal compound)

include notLocal

/-- A compound that is not local is kept or wrapped. -/
theorem globalizeCompound_cases_of_notLocal :
    (globalizeCompound compound = compound ∧ (compound = [] ∨ marker <+: compound)) ∨
      globalizeCompound compound = marker ++ '(' :: (compound ++ [')']) := by
  obtain kept | ⟨-, isLocal⟩ | isWrapped := globalizeCompound_cases compound
  · exact .inl kept
  · exact absurd isLocal notLocal
  · exact .inr isWrapped

/-- A globalized compound is kept. -/
theorem globalizeCompound_globalizeCompound :
    globalizeCompound (globalizeCompound compound) = globalizeCompound compound := by
  rcases globalizeCompound_cases_of_notLocal notLocal with ⟨kept, -⟩ | isWrapped
  · rw [kept, kept]
  · have marked : Text.startsWith marker (marker ++ '(' :: (compound ++ [')'])) = true :=
      Text.startsWith_eq_true_iff.mpr (List.prefix_append _ _)
    rw [isWrapped, globalizeCompound, marked, Bool.or_true, if_pos rfl]

/-- A globalized compound is a compound, and it may end if it could before. -/
theorem over?_globalizeCompound
    {final : CompoundScan}
    (taken : CompoundScan.initial.over? compound = some final) :
    ∃ closed, CompoundScan.initial.over? (globalizeCompound compound) = some closed ∧
      (final = .initial → closed = .initial) := by
  rcases globalizeCompound_cases_of_notLocal notLocal with ⟨kept, -⟩ | isWrapped
  · rw [kept]
    exact ⟨final, taken, id⟩
  · rw [isWrapped]
    exact CompoundScan.over?_parenthesized taken

/-- A globalized compound starts as before or with the colon of the marker. -/
theorem head?_globalizeCompound
    {char : Char}
    (first : (globalizeCompound compound).head? = some char) :
    compound.head? = some char ∨ char = ':' := by
  rcases globalizeCompound_cases_of_notLocal notLocal with ⟨kept, -⟩ | isWrapped
  · rw [kept] at first
    exact .inl first
  · rw [isWrapped] at first
    cases first
    exact .inr rfl

end Compound

/-! ## Wrapped texts -/

theorem wrapped_of_over?
    {text : Text}
    {final : CompoundScan}
    (taken : CompoundScan.initial.over? text = some final) :
    wrapped text = globalizeCompound text :=
  wrapped_of_whole (sequenceOf_of_over? taken)

theorem Separated.wrapped_eq
    {first combinator rest : Text}
    (separated : Separated first combinator rest) :
    wrapped (first ++ combinator ++ rest) =
      globalizeCompound first ++ combinator ++ wrapped rest :=
  wrapped_of_combined separated.sequenceOf_eq

theorem head?_wrapped
    {text : Text}
    (notLocal : CompoundsHave NotLocal text)
    {char : Char}
    (first : (wrapped text).head? = some char) :
    text.head? = some char ∨ char = ':' := by
  induction text using separated_induction with
  | whole text final taken =>
      rw [wrapped_of_over? taken] at first
      exact head?_globalizeCompound (notLocal.of_whole (sequenceOf_of_over? taken)) first
  | separated compound combinator rest separated _ =>
      obtain ⟨compoundNotLocal, -⟩ := notLocal.of_combined separated.sequenceOf_eq
      obtain ⟨start, others, rfl, -⟩ := separated.starts
      rw [separated.wrapped_eq, List.append_assoc, List.head?_append] at first
      rw [List.append_assoc, List.head?_append]
      cases globalized : globalizeCompound compound with
      | nil =>
          -- The compound was empty, and the combinator comes first.
          have keeps := keepsEnds_globalizeCompound fun isLocal =>
            absurd isLocal compoundNotLocal
          rw [keeps.empty globalized]
          rw [globalized] at first
          exact .inl first
      | cons opening further =>
          have opens : (globalizeCompound compound).head? = some char := by
            rw [globalized] at first ⊢
            exact first
          rcases head?_globalizeCompound compoundNotLocal opens with same | colon
          · rw [same]
            exact .inl rfl
          · exact .inr colon

/-- The combinators of a wrapped text are where they were. -/
theorem Separated.wrapped
    {first combinator rest : Text}
    (separated : Separated first combinator rest)
    (firstNotLocal : NotLocal first)
    (restNotLocal : CompoundsHave NotLocal rest) :
    Separated (globalizeCompound first) combinator (wrapped rest) where
  taken := by
    obtain ⟨closed, taken, ends⟩ := over?_globalizeCompound firstNotLocal separated.taken
    rw [ends rfl] at taken
    exact taken
  starts := separated.starts
  continues := separated.continues
  stops := by
    intro char isFirst
    rcases head?_wrapped restNotLocal isFirst with same | rfl
    · exact separated.stops char same
    · decide

/-- A wrapped text is wrapped. -/
theorem wrapped_wrapped
    {text : Text}
    (notLocal : CompoundsHave NotLocal text) :
    wrapped (wrapped text) = wrapped text := by
  induction text using separated_induction with
  | whole text final taken =>
      have textNotLocal := notLocal.of_whole (sequenceOf_of_over? taken)
      obtain ⟨closed, takenAgain, -⟩ := over?_globalizeCompound textNotLocal taken
      rw [wrapped_of_over? taken, wrapped_of_over? takenAgain,
        globalizeCompound_globalizeCompound textNotLocal]
  | separated first combinator rest separated ih =>
      obtain ⟨firstNotLocal, restNotLocal⟩ := notLocal.of_combined separated.sequenceOf_eq
      rw [separated.wrapped_eq, (separated.wrapped firstNotLocal restNotLocal).wrapped_eq,
        globalizeCompound_globalizeCompound firstNotLocal, ih restNotLocal]

/-! ## Selectors -/

/-- The compounds of a text stand in it. -/
theorem compoundsHave_within (text : Text) : CompoundsHave (· <:+: text) text := by
  induction text using separated_induction with
  | whole text final taken =>
      rw [CompoundsHave, sequenceOf_of_over? taken]
      intro compound member
      obtain rfl : compound = text := List.mem_singleton.mp member
      exact List.infix_rfl
  | separated first combinator rest separated ih =>
      rw [CompoundsHave, separated.sequenceOf_eq]
      intro compound member
      rcases List.mem_cons.mp member with rfl | later
      · exact ⟨[], combinator ++ rest, by simp⟩
      · exact (ih compound later).trans (List.suffix_append _ rest).isInfix

theorem trim_within (text : Text) : Text.trim text <:+: text := by
  obtain ⟨leading, trailing, parts, -, -⟩ := Text.exists_eq_append_trim text
  exact ⟨leading, trailing, parts.symm⟩

theorem compoundsHave_notLocal
    {selector : Text}
    (noLocal : ¬(":local" : Text) <:+: selector) :
    CompoundsHave NotLocal (Text.trim selector) := by
  intro compound member isLocal
  have inSelector : compound <:+: selector :=
    (compoundsHave_within (Text.trim selector) compound member).trans (trim_within selector)
  exact noLocal (isLocal.isInfix.trans inSelector)

/-- Globalizing a selector without `:local` again changes nothing. -/
theorem globalize_globalize
    {selector : Text}
    (noLocal : ¬(":local" : Text) <:+: selector) :
    globalize (globalize selector) = globalize selector := by
  have notLocal := compoundsHave_notLocal noLocal
  have trimmed : Text.trim (globalize selector) = globalize selector :=
    trim_globalize fun compound member isLocal => absurd isLocal (notLocal compound member)
  calc globalize (globalize selector)
    _ = wrapped (Text.trim (globalize selector)) := rfl
    _ = wrapped (globalize selector) := by rw [trimmed]
    _ = globalize selector := wrapped_wrapped notLocal

/-- A local compound is unwrapped once, and wrapped the second time. -/
example : globalize ":local(.a)" = (".a" : Text) ∧
    globalize (globalize ":local(.a)") = (":global(.a)" : Text) := by
  decide +kernel

/-- A selector that closes more than it opens and opens more than it closes, with a
combinator before its first compound, escapes, and a backslash at its end. -/
def unbalancedSample : Text :=
  " > a))[b\\] c] + :global(d) \\~e\u00a0(f, g('\\"

theorem globalize_globalize_unbalancedSample :
    ¬(":local" : Text) <:+: unbalancedSample ∧
      globalize unbalancedSample =
        ("> :global(a))[b\\] c]) + :global(d) :global(\\~e\u00a0(f, g('\\)" : Text) ∧
      globalize (globalize unbalancedSample) = globalize unbalancedSample := by
  have noLocal : ¬(":local" : Text) <:+: unbalancedSample := by decide +kernel
  exact ⟨noLocal, by decide +kernel, globalize_globalize noLocal⟩

end Selector
end ComponentPipeline
