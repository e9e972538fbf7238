import ComponentPipeline.Proofs.Selector.GlobalizedAgain
import ComponentPipeline.Proofs.Selector.MarkerPlaces

/-!
# Bare markers in wrapped compounds

Wrapping the compounds of a text neither makes a bare marker nor hides one.  The
scan that finds compounds does not know strings, so it may take one apart and put
parentheses inside it; but it goes by the same escapes as the scan for markers,
and nothing that it puts into a text is a quote or a backslash.  So each character
of the text is in a string or escaped exactly if it was so before, and the markers
that come with the parentheses are not bare.
-/

namespace ComponentPipeline
namespace Selector

/-! ## Strings and escapes in a compound -/

namespace Quoting

variable {quoting : Quoting} {scan : CompoundScan}

/-- Escapes do not depend on strings. -/
theorem escaped_step
    (same : quoting.escaped = scan.escaped)
    (char : Char) :
    (quoting.step char).escaped = (scan.step char).escaped := by
  obtain ⟨quote, escaped⟩ := quoting
  obtain ⟨depth, escaped'⟩ := scan
  simp only at same
  subst same
  unfold Quoting.step CompoundScan.step
  dsimp only
  repeat' split
  all_goals rfl

theorem escaped_over
    {text : Text}
    {final : CompoundScan}
    (same : quoting.escaped = scan.escaped)
    (taken : scan.over? text = some final) :
    (quoting.over text).escaped = final.escaped := by
  induction text generalizing quoting scan with
  | nil =>
      cases taken
      exact same
  | cons char rest ih =>
      rw [CompoundScan.over?_cons] at taken
      split at taken
      · cases taken
      · exact ih (escaped_step same char) taken

/-- A string is opened by a quote. -/
theorem quoted_step
    (quoted : ∀ quote ∈ quoting.quote, quote = '"' ∨ quote = '\'')
    (char : Char) :
    ∀ quote ∈ (quoting.step char).quote, quote = '"' ∨ quote = '\'' := by
  obtain ⟨quote, escaped⟩ := quoting
  intro opened isOpen
  unfold Quoting.step at isOpen
  dsimp only at isOpen
  repeat' split at isOpen
  all_goals first
    | exact quoted opened isOpen
    | cases isOpen
  assumption

theorem quoted_over
    (quoted : ∀ quote ∈ quoting.quote, quote = '"' ∨ quote = '\'')
    (text : Text) :
    ∀ quote ∈ (quoting.over text).quote, quote = '"' ∨ quote = '\'' := by
  induction text generalizing quoting with
  | nil => exact quoted
  | cons char rest ih => exact ih (quoted_step quoted char)

/-- A character that is neither a quote nor a backslash opens and closes no
string, escaped or not. -/
theorem quote_step
    (quoted : ∀ quote ∈ quoting.quote, quote = '"' ∨ quote = '\'')
    {char : Char}
    (plain : IsPlain char) :
    (quoting.step char).quote = quoting.quote := by
  obtain ⟨quote, escaped⟩ := quoting
  cases escaped with
  | true => rfl
  | false => rw [Resting.step_eq ⟨rfl, quoted⟩ plain]

theorem quote_over
    (quoted : ∀ quote ∈ quoting.quote, quote = '"' ∨ quote = '\'')
    {text : Text}
    (plain : ∀ char ∈ text, IsPlain char) :
    (quoting.over text).quote = quoting.quote := by
  induction text generalizing quoting with
  | nil => rfl
  | cons char rest ih =>
      have plainHere := plain char List.mem_cons_self
      have later := ih (quoted_step quoted char) fun other member =>
        plain other (List.mem_cons_of_mem _ member)
      rw [quote_step quoted plainHere] at later
      exact later

end Quoting

section Resting

variable {quoting : Quoting} (resting : quoting.Resting)

include resting

/-- Behind a compound that ends there, nothing is escaped. -/
theorem resting_over_of_over?
    {compound : Text}
    (taken : CompoundScan.initial.over? compound = some .initial) :
    (quoting.over compound).Resting where
  unescaped := Quoting.escaped_over resting.unescaped taken
  quoted := Quoting.quoted_over resting.quoted compound

theorem over_parenthesized (text : Text) :
    quoting.over (marker ++ '(' :: (text ++ [')'])) = (quoting.over text).step ')' := by
  have parts : marker ++ '(' :: (text ++ [')']) = marker ++ ['('] ++ text ++ [')'] := by simp
  rw [parts, Quoting.over_append, Quoting.over_append,
    resting.over_eq isPlain_of_mem_globalOpening]
  rfl

variable {compound : Text} (notLocal : NotLocal compound)

include notLocal

/-- Wrapping a compound leaves the same string open. -/
theorem quote_over_globalizeCompound :
    (quoting.over (globalizeCompound compound)).quote = (quoting.over compound).quote := by
  rcases globalizeCompound_cases_of_notLocal notLocal with ⟨kept, -⟩ | isWrapped
  · rw [kept]
  · rw [isWrapped, over_parenthesized resting]
    exact Quoting.quote_step (Quoting.quoted_over resting.quoted compound)
      separates_closingParenthesis.plain

theorem over_globalizeCompound
    (taken : CompoundScan.initial.over? compound = some .initial) :
    quoting.over (globalizeCompound compound) = quoting.over compound := by
  rcases globalizeCompound_cases_of_notLocal notLocal with ⟨kept, -⟩ | isWrapped
  · rw [kept]
  · rw [isWrapped, over_parenthesized resting]
    exact (resting_over_of_over? resting taken).step_eq separates_closingParenthesis.plain

end Resting

/-! ## Wrapped texts -/

namespace Separated

variable {first combinator rest : Text} (separated : Separated first combinator rest)

include separated

theorem separates : ∀ char ∈ combinator, Separates char := fun char member =>
  separates_of_continuesCombinator (separated.continues char member)

/-- A combinator leaves strings as they are. -/
theorem over_eq
    {quoting : Quoting}
    (resting : quoting.Resting) :
    quoting.over (first ++ combinator) = quoting.over first := by
  rw [Quoting.over_append]
  exact (resting_over_of_over? resting separated.taken).over_eq fun char member =>
    (separated.separates char member).plain

end Separated

/-- Wrapping the compounds of a text leaves the same string open. -/
theorem quote_over_wrapped
    {quoting : Quoting}
    (resting : quoting.Resting)
    {text : Text}
    (notLocal : CompoundsHave NotLocal text) :
    (quoting.over (wrapped text)).quote = (quoting.over text).quote := by
  induction text using separated_induction generalizing quoting with
  | whole text final taken =>
      rw [wrapped_of_over? taken]
      exact quote_over_globalizeCompound resting
        (notLocal.of_whole (sequenceOf_of_over? taken))
  | separated first combinator rest separated ih =>
      obtain ⟨firstNotLocal, restNotLocal⟩ := notLocal.of_combined separated.sequenceOf_eq
      have wrappedSeparated := separated.wrapped firstNotLocal restNotLocal
      have behind := resting_over_of_over? resting separated.taken
      have same : quoting.over (globalizeCompound first ++ combinator) =
          quoting.over (first ++ combinator) := by
        rw [wrappedSeparated.over_eq resting, separated.over_eq resting,
          over_globalizeCompound resting firstNotLocal separated.taken]
      rw [separated.wrapped_eq, Quoting.over_append, Quoting.over_append quoting _ rest, same,
        separated.over_eq resting]
      exact ih behind restNotLocal

/-- A state behind a separator. -/
def MarkerScan.behind (quoting : Quoting) : MarkerScan :=
  ⟨0, quoting.quote, quoting.escaped, false⟩

theorem Quoting.Resting.behind
    {quoting : Quoting}
    (resting : quoting.Resting) :
    (MarkerScan.behind quoting).quoting.Resting :=
  resting

/-- A compound, a combinator and what follows have the markers of the compound and
of what follows. -/
theorem Separated.hasMarkerFrom_iff
    {first combinator rest : Text}
    (separated : Separated first combinator rest)
    {quoting : Quoting}
    (resting : quoting.Resting) :
    HasMarkerFrom (.behind quoting) (first ++ combinator ++ rest) ↔
      HasMarkerFrom (.behind quoting) first ∨
        HasMarkerFrom (.behind (quoting.over first)) rest := by
  obtain ⟨start, others, parts, -⟩ := separated.starts
  have separates := separated.separates
  rw [parts] at separates ⊢
  have startSeparates := separates start List.mem_cons_self
  have resting' := resting_over_of_over? resting separated.taken
  have sameQuoting : (((MarkerScan.behind quoting).over first).step start).quoting =
      (MarkerScan.behind (quoting.over first)).quoting := by
    rw [MarkerScan.quoting_step, MarkerScan.quoting_over]
    exact resting'.step_eq startSeparates.plain
  have later : HasMarkerFrom (((MarkerScan.behind quoting).over first).step start)
      (others ++ rest) ↔ HasMarkerFrom (.behind (quoting.over first)) rest := by
    rw [hasMarkerFrom_congr sameQuoting (startSeparates.afterColon_step _)]
    exact hasMarkerFrom_append_iff_of_separates resting'.behind rfl
      fun char member => separates char (List.mem_cons_of_mem _ member)
  rw [List.append_assoc, List.cons_append,
    hasMarkerFrom_append_iff startSeparates.foreign startSeparates.ends, later]

theorem hasMarkerFrom_globalizeCompound_iff
    {quoting : Quoting}
    (resting : quoting.Resting)
    {compound : Text}
    (notLocal : NotLocal compound) :
    HasMarkerFrom (.behind quoting) (globalizeCompound compound) ↔
      HasMarkerFrom (.behind quoting) compound := by
  rcases globalizeCompound_cases_of_notLocal notLocal with ⟨kept, -⟩ | isWrapped
  · rw [kept]
  · rw [isWrapped]
    exact hasMarkerFrom_parenthesized_iff resting.behind rfl

theorem hasMarkerFrom_wrapped_iff
    {quoting : Quoting}
    (resting : quoting.Resting)
    {text : Text}
    (notLocal : CompoundsHave NotLocal text) :
    HasMarkerFrom (.behind quoting) (wrapped text) ↔
      HasMarkerFrom (.behind quoting) text := by
  induction text using separated_induction generalizing quoting with
  | whole text final taken =>
      rw [wrapped_of_over? taken]
      exact hasMarkerFrom_globalizeCompound_iff resting
        (notLocal.of_whole (sequenceOf_of_over? taken))
  | separated first combinator rest separated ih =>
      obtain ⟨firstNotLocal, restNotLocal⟩ := notLocal.of_combined separated.sequenceOf_eq
      have wrappedSeparated := separated.wrapped firstNotLocal restNotLocal
      have behind := resting_over_of_over? resting separated.taken
      rw [separated.wrapped_eq, wrappedSeparated.hasMarkerFrom_iff resting,
        separated.hasMarkerFrom_iff resting,
        over_globalizeCompound resting firstNotLocal separated.taken,
        hasMarkerFrom_globalizeCompound_iff resting firstNotLocal, ih behind restNotLocal]

/-- Wrapping the compounds of a text neither makes a marker nor hides one. -/
theorem hasMarker_wrapped_iff
    {text : Text}
    (notLocal : CompoundsHave NotLocal text) :
    HasMarker (wrapped text) ↔ HasMarker text :=
  hasMarkerFrom_wrapped_iff Quoting.resting_outside notLocal

end Selector
end ComponentPipeline
