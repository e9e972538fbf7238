import ComponentPipeline.Css.Globalization
import ComponentPipeline.Proofs.Selector.WrappedMarkers

/-!
# A rewritten selector has no marker

What takes the place of a marked selector has no bare marker left.  The segments
between the markers have none; each of them but the last one leaves no string
open, since a marker stands behind it, and so does what it is globalized to.  A
backslash that trimming has left at the end of a segment escapes the space or the
parenthesis behind it, and nothing of a marker.
-/

namespace ComponentPipeline

namespace Selector

/-- No segment but the last one leaves a string open. -/
theorem over_eq_outside_of_splitFrom
    {scan : MarkerScan}
    {text beginning : Text}
    {rest : List Text}
    (split : splitFrom scan text = .segments beginning rest) :
    (rest ≠ [] → scan.quoting.over beginning = .outside) ∧
      rest.Pairwise fun segment _ => Quoting.outside.over segment = .outside := by
  fun_induction splitFrom scan text generalizing beginning rest with
  | case1 scan =>
      cases split
      exact ⟨fun some => absurd rfl some, .nil⟩
  | case2 scan char tail after found nested => cases split
  | case3 scan char tail after found flat ih =>
      obtain ⟨first, others, later, rfl, rfl⟩ := Marked.exists_of_consMarker_eq split
      obtain ⟨firstCloses, othersClose⟩ := ih later
      obtain ⟨outside, -⟩ :=
        MarkerScan.mayMark_eq_true_iff.mp (mayMark_stepMarker_of_markerAt? found)
      rw [outside] at firstCloses
      exact ⟨fun _ => outside, List.pairwise_cons.mpr
        ⟨fun _ member => firstCloses (List.ne_nil_of_mem member), othersClose⟩⟩
  | case4 scan char tail absent ih =>
      obtain ⟨first, later, rfl⟩ := Marked.exists_of_consChar_eq split
      obtain ⟨firstCloses, othersClose⟩ := ih later
      rw [MarkerScan.quoting_step] at firstCloses
      exact ⟨firstCloses, othersClose⟩

/-- The segments of a text stand in it. -/
theorem within_of_splitFrom
    {scan : MarkerScan}
    {text beginning : Text}
    {rest : List Text}
    (split : splitFrom scan text = .segments beginning rest) :
    ∀ segment ∈ rest, segment <:+: text := by
  intro segment member
  obtain ⟨before, after, parts⟩ := List.append_of_mem member
  rw [eq_of_splitFrom split, parts]
  exact ⟨beginning ++ before.flatMap (marker ++ ·) ++ marker,
    after.flatMap (marker ++ ·), by simp⟩

end Selector

namespace Css

open Selector (HasMarker HasMarkerFrom MarkerScan Quoting Separates)

/-- A text at the end of which no string is open. -/
def ClosesStrings (text : Text) : Prop :=
  (Quoting.outside.over text).quote = none

/-- Behind a text that leaves no string open, a character that is no quote and no
backslash is outside strings, and what follows it is not escaped. -/
theorem step_of_closesStrings
    {text : Text}
    {char : Char}
    (closes : ClosesStrings text)
    (plain : Selector.IsPlain char) :
    (Quoting.outside.over text).step char = .outside := by
  unfold ClosesStrings at closes
  generalize Quoting.outside.over text = quoting at closes
  obtain ⟨quote, escaped⟩ := quoting
  cases closes
  cases escaped with
  | true => rfl
  | false => exact plain

theorem quote_over_trim (text : Text) :
    (Quoting.outside.over (Text.trim text)).quote = (Quoting.outside.over text).quote := by
  obtain ⟨leading, trailing, parts, blankBefore, blankAfter⟩ := Text.exists_eq_append_trim text
  have plain {blanks : Text} (blank : Text.isBlankText blanks = true) :
      ∀ char ∈ blanks, Selector.IsPlain char := fun char member =>
    (Selector.separates_of_isBlank (List.all_eq_true.mp blank char member)).plain
  have quoted := Quoting.quoted_over Quoting.resting_outside.quoted (Text.trim text)
  calc (Quoting.outside.over (Text.trim text)).quote
    _ = (((Quoting.outside.over leading).over (Text.trim text)).over trailing).quote := by
      rw [Quoting.resting_outside.over_eq (plain blankBefore),
        Quoting.quote_over quoted (plain blankAfter)]
    _ = (Quoting.outside.over text).quote := by
      rw [← Quoting.over_append, ← Quoting.over_append, ← List.append_assoc, ← parts]

theorem closesStrings_trim_iff {text : Text} :
    ClosesStrings (Text.trim text) ↔ ClosesStrings text := by
  rw [ClosesStrings, quote_over_trim, ClosesStrings]

section Segment

variable {segment : Text}
  (notLocal : Selector.CompoundsHave Selector.NotLocal (Text.trim segment))

include notLocal

/-- Globalizing a segment leaves the same strings open. -/
theorem closesStrings_globalize_iff :
    ClosesStrings (Selector.globalize segment) ↔ ClosesStrings segment := by
  have same : (Quoting.outside.over (Selector.globalize segment)).quote =
      (Quoting.outside.over (Text.trim segment)).quote :=
    Selector.quote_over_wrapped Quoting.resting_outside notLocal
  rw [ClosesStrings, same, quote_over_trim, ClosesStrings]

/-- Globalizing a segment neither makes a marker nor hides one. -/
theorem hasMarker_globalize_iff :
    HasMarker (Selector.globalize segment) ↔ HasMarker segment := by
  have asTrimmed : HasMarker (Text.trim segment) ↔ HasMarker segment :=
    Selector.hasMarker_trim_iff
  exact (Selector.hasMarker_wrapped_iff notLocal).trans asTrimmed

end Segment

/-- Texts without markers of which none but the last one leaves a string open have
no marker when they are joined by spaces. -/
theorem not_hasMarker_intercalate
    {texts : List Text}
    (close : texts.Pairwise fun text _ => ClosesStrings text)
    (unmarked : ∀ text ∈ texts, ¬HasMarker text) :
    ¬HasMarker (List.intercalate [' '] texts) := by
  induction texts with
  | nil => exact Selector.not_hasMarkerFrom_nil _
  | cons first rest ih =>
      have firstUnmarked := unmarked first List.mem_cons_self
      have restUnmarked := ih close.tail fun text member =>
        unmarked text (List.mem_cons_of_mem _ member)
      cases rest with
      | nil =>
          rw [List.intercalate_singleton]
          exact firstUnmarked
      | cons second rest =>
          have closes : ClosesStrings first :=
            (List.pairwise_cons.mp close).1 second List.mem_cons_self
          have separates : Separates ' ' := Selector.separates_of_isBlank (by decide)
          have outside : ((MarkerScan.initial.over first).step ' ').quoting = .outside := by
            rw [MarkerScan.quoting_step, MarkerScan.quoting_over]
            exact step_of_closesStrings closes separates.plain
          have noColon : ((MarkerScan.initial.over first).step ' ').afterColon = false :=
            separates.afterColon_step _
          have behind : HasMarkerFrom ((MarkerScan.initial.over first).step ' ')
              (List.intercalate [' '] (second :: rest)) ↔
                HasMarker (List.intercalate [' '] (second :: rest)) :=
            Selector.hasMarkerFrom_congr outside noColon
          rw [List.intercalate_cons_cons, List.append_assoc, List.singleton_append, HasMarker,
            Selector.hasMarkerFrom_append_iff separates.foreign separates.ends, behind, not_or]
          exact ⟨firstUnmarked, restUnmarked⟩

/-- A selector without `:local` is not marked any more once it is rewritten: what
takes its place is a single segment. -/
theorem splitOnMarker_joinSegments
    {selector beginning segment : Text}
    {rest : List Text}
    (noLocal : ¬(":local" : Text) <:+: selector)
    (split : Selector.splitOnMarker selector = .segments beginning (segment :: rest)) :
    Selector.splitOnMarker (joinSegments Selector.globalize beginning (segment :: rest)) =
      .segments (joinSegments Selector.globalize beginning (segment :: rest)) [] := by
  generalize segment :: rest = segments at split
  obtain ⟨beginningUnmarked, segmentsUnmarked⟩ := Selector.not_hasMarker_of_splitFrom split
  obtain ⟨beginningCloses, segmentsClose⟩ := Selector.over_eq_outside_of_splitFrom split
  have notLocal : ∀ segment ∈ segments,
      Selector.CompoundsHave Selector.NotLocal (Text.trim segment) := by
    intro segment member
    have within := Selector.within_of_splitFrom split segment member
    exact Selector.compoundsHave_notLocal fun isLocal => noLocal (isLocal.trans within)
  apply Selector.splitFrom_of_not_hasMarkerFrom
  apply not_hasMarker_intercalate
  · apply List.Pairwise.filter
    refine List.pairwise_cons.mpr ⟨fun text member => ?_, List.pairwise_map.mpr ?_⟩
    · obtain ⟨segment, isSegment, -⟩ := List.mem_map.mp member
      have closes := beginningCloses (List.ne_nil_of_mem isSegment)
      exact closesStrings_trim_iff.mpr (congrArg Quoting.quote closes)
    · apply segmentsClose.imp_of_mem
      intro segment other isSegment _ closes
      rw [closesStrings_trim_iff, closesStrings_globalize_iff (notLocal segment isSegment)]
      exact congrArg Quoting.quote closes
  · intro text member
    rcases List.mem_cons.mp (List.mem_filter.mp member).1 with rfl | inSegments
    · rw [Selector.hasMarker_trim_iff]
      exact beginningUnmarked
    · obtain ⟨segment, isSegment, rfl⟩ := List.mem_map.mp inSegments
      rw [Selector.hasMarker_trim_iff, hasMarker_globalize_iff (notLocal segment isSegment)]
      exact segmentsUnmarked segment isSegment

/-- A selector with an escaped blank before its first and its second marker, markers
in strings, behind a colon and behind a backslash, brackets that do not match, and a
string left open. -/
def openEndedSample : Text :=
  "x\\ :global ::global \"p :global q\"\\:global c\\ :global ((r] \"s :global"

theorem splitOnMarker_joinSegments_openEndedSample :
    ¬(":local" : Text) <:+: openEndedSample ∧
      Selector.splitOnMarker openEndedSample = .segments "x\\ "
        [" ::global \"p :global q\"\\:global c\\ ", " ((r] \"s :global"] ∧
      joinSegments Selector.globalize "x\\ "
          [" ::global \"p :global q\"\\:global c\\ ", " ((r] \"s :global"] =
        ("x\\ :global(::global) :global(\"p) :global :global(q\"\\:global) :global(c\\) " ++
          ":global(((r] \"s :global)" : String) ∧
      Selector.splitOnMarker (joinSegments Selector.globalize "x\\ "
          [" ::global \"p :global q\"\\:global c\\ ", " ((r] \"s :global"]) =
        .segments (joinSegments Selector.globalize "x\\ "
          [" ::global \"p :global q\"\\:global c\\ ", " ((r] \"s :global"]) [] := by
  have noLocal : ¬(":local" : Text) <:+: openEndedSample := by decide +kernel
  have split : Selector.splitOnMarker openEndedSample = .segments "x\\ "
      [" ::global \"p :global q\"\\:global c\\ ", " ((r] \"s :global"] := by
    decide +kernel
  exact ⟨noLocal, split, by decide +kernel, splitOnMarker_joinSegments noLocal split⟩

end Css
end ComponentPipeline
