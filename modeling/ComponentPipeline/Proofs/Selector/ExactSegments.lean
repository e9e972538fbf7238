import ComponentPipeline.Proofs.Selector.ByteLoop
import ComponentPipeline.Proofs.Selector.OpenBrackets

/-!
# Splitting is exact

A selector is its segments with markers between them; there are at least two, and
none of them has a marker when it is looked at on its own.  Splitting fails exactly
if a bare marker stands where a parenthesis or a bracket is open.  A loop over the
bytes of the selector comes to the same, and slices it only where characters meet.
-/

namespace ComponentPipeline
namespace Selector

/-! ## Segments -/

theorem intercalate_marker (beginning : Text) (rest : List Text) :
    List.intercalate marker (beginning :: rest) = beginning ++ rest.flatMap (marker ++ ·) := by
  induction rest generalizing beginning with
  | nil => simp
  | cons segment rest ih =>
      rw [List.intercalate_cons_cons, ih, List.flatMap_cons, List.append_assoc,
        List.append_assoc]

namespace Marked

variable {marked : Marked}

theorem answer_eq_segments_iff {segments : List Text} :
    marked.answer = .ok (some segments) ↔
      ∃ beginning segment rest, marked = .segments beginning (segment :: rest) ∧
        segments = beginning :: segment :: rest := by
  cases marked with
  | nested => simp [answer]
  | segments beginning rest =>
      cases rest with
      | nil => simp [answer]
      | cons segment rest =>
          simp only [answer, Except.ok.injEq, Option.some.injEq, Marked.segments.injEq,
            List.cons.injEq]
          constructor
          · rintro rfl
            exact ⟨beginning, segment, rest, ⟨rfl, rfl, rfl⟩, rfl⟩
          · rintro ⟨_, _, _, ⟨rfl, rfl, rfl⟩, rfl⟩
            rfl

theorem exists_answer_iff : (∃ found, marked.answer = .ok found) ↔ marked ≠ .nested := by
  cases marked with
  | nested => simp [answer]
  | segments beginning rest => cases rest <;> simp [answer]

end Marked

/-- Splitting finds nothing exactly in the selectors without a marker. -/
theorem answer_eq_none_iff {selector : Text} :
    (splitOnMarker selector).answer = .ok none ↔ ¬HasMarker selector := by
  constructor
  · intro noSegments
    cases split : splitOnMarker selector with
    | nested =>
        rw [split] at noSegments
        cases noSegments
    | segments beginning rest =>
        rw [split] at noSegments
        rw [hasMarker_iff_of_splitOnMarker split]
        cases rest with
        | nil => exact fun notEmpty => notEmpty rfl
        | cons segment rest => cases noSegments
  · intro unmarked
    rw [splitOnMarker, splitFrom_of_not_hasMarkerFrom unmarked]
    rfl

/-- Texts between which the markers of a selector stand. -/
structure AreSegments (selector : Text) (segments : List Text) : Prop where
  /-- With markers between them they are the selector. -/
  joined : List.intercalate marker segments = selector
  /-- There is one before a marker and one behind it. -/
  several : 2 ≤ segments.length
  /-- Splitting finds nothing in any of them on its own. -/
  unmarked : ∀ segment ∈ segments, (splitOnMarker segment).answer = .ok none

theorem areSegments_of_answer
    {selector : Text}
    {segments : List Text}
    (found : (splitOnMarker selector).answer = .ok (some segments)) :
    AreSegments selector segments := by
  obtain ⟨beginning, segment, rest, split, rfl⟩ := Marked.answer_eq_segments_iff.mp found
  obtain ⟨beginningUnmarked, restUnmarked⟩ := not_hasMarker_of_splitFrom split
  constructor
  · rw [intercalate_marker, ← eq_of_splitFrom split]
  · simp
  · intro piece member
    rw [answer_eq_none_iff]
    rcases List.mem_cons.mp member with rfl | behind
    · exact beginningUnmarked
    · exact restUnmarked piece behind

/-! ## The main statement -/

/-- What is found in a selector is what stands in it. -/
structure SplitsExactly (selector : Text) : Prop where
  /-- A loop over the bytes answers the same, and slices the selector only where
  characters meet. -/
  atCharacters : splitBytes selector = some (splitOnMarker selector).answer
  /-- Segments are given only with the markers between them. -/
  areSegments : ∀ segments, (splitOnMarker selector).answer = .ok (some segments) →
    AreSegments selector segments
  /-- It fails exactly if a bare marker stands where something is open. -/
  succeeds : (∃ found, (splitOnMarker selector).answer = .ok found) ↔
    ¬∃ depth, 0 < depth ∧ BareMarkerAt depth selector
  /-- Nothing is found exactly if no bare marker stands anywhere. -/
  findsNothing : (splitOnMarker selector).answer = .ok none ↔
    ¬∃ depth, BareMarkerAt depth selector

/-- Every selector is split exactly. -/
theorem splitsExactly (selector : Text) : SplitsExactly selector where
  atCharacters := by
    have answered : splitBytes selector = some ((splitOnMarker selector).behind [] []).answer :=
      ByteScan.standsBehind_initial.run_eq
    rw [answered, Marked.behind_nil]
  areSegments := fun _ => areSegments_of_answer
  succeeds := by
    rw [Marked.exists_answer_iff, ne_eq, splitOnMarker_eq_nested_iff,
      hasNestedMarker_iff_bareMarkerAt]
  findsNothing := by
    rw [answer_eq_none_iff, hasMarker_iff_bareMarkerAt]

example :
    splitBytes "a\\é:global (\":global\"] ::global é\\" =
      some (.ok (some ["a\\é", " (\":global\"] ::global é\\"])) := by
  decide +kernel

end Selector
end ComponentPipeline
