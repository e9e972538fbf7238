import ComponentPipeline.SourceMap.Closest
import Mathlib.Data.List.Sort
import Mathlib.Data.List.TakeWhile

/-!
# What a look-up in a line finds

Where the mappings of a line have distinct columns, a look-up finds the last
mapping at or before a column only if some mapping of the line is at the column
or further on.  Behind the last mapping of a line, and before the first one,
it finds the start of the line with the place of the leftmost mapping.
-/

namespace ComponentPipeline
namespace SourceMap

/-- No two mappings of a map are at one location. -/
def Distinct (map : SourceMap) : Prop :=
  (map.mappings.map Mapping.generated).Nodup

instance (map : SourceMap) : Decidable map.Distinct :=
  inferInstanceAs (Decidable (map.mappings.map Mapping.generated).Nodup)

/-- The last mapping of a line at or before a location. -/
structure NearestBefore (map : SourceMap) (location : Location) (mapping : Mapping) :
    Prop where
  /-- It is a mapping of the map. -/
  member : mapping ∈ map.mappings
  /-- It is on the line. -/
  line : mapping.generated.line = location.line
  /-- It is at the column or before it. -/
  atOrBefore : mapping.generated.column ≤ location.column
  /-- No other one is closer. -/
  last : ∀ other ∈ map.mappings, other.generated.line = location.line →
    other.generated.column ≤ location.column →
      other.generated.column ≤ mapping.generated.column

/-- A line has a mapping at a location or further on. -/
def Reaches (map : SourceMap) (location : Location) : Prop :=
  ∃ mapping ∈ map.mappings, mapping.generated.line = location.line ∧
    location.column ≤ mapping.generated.column

/-- The leftmost mapping of a line. -/
structure Leftmost (map : SourceMap) (number : Nat) (mapping : Mapping) : Prop where
  /-- It is a mapping of the map. -/
  member : mapping ∈ map.mappings
  /-- It is on the line. -/
  line : mapping.generated.line = number
  /-- No other one is further left. -/
  first : ∀ other ∈ map.mappings, other.generated.line = number →
    mapping.generated.column ≤ other.generated.column

/-! ## In a sorted line -/

section Line

variable {mappings : List Mapping} {line column : Nat}

/-- Mappings by increasing column. -/
def ByColumn (mappings : List Mapping) : Prop :=
  mappings.Pairwise fun first second => first.generated.column ≤ second.generated.column

/-- The mappings at or before a column are at the start of a sorted line. -/
theorem ByColumn.mem_takeWhile
    (sorted : ByColumn mappings)
    {mapping : Mapping}
    (member : mapping ∈ mappings)
    (atOrBefore : mapping.generated.column ≤ column) :
    mapping ∈ mappings.takeWhile fun mapping => mapping.generated.column ≤ column := by
  induction mappings with
  | nil => cases member
  | cons first rest ih =>
      obtain ⟨beforeRest, sortedRest⟩ := List.pairwise_cons.mp sorted
      have firstAtOrBefore : first.generated.column ≤ column := by
        rcases List.mem_cons.mp member with rfl | inRest
        · exact atOrBefore
        · exact (beforeRest mapping inRest).trans atOrBefore
      simp only [List.takeWhile_cons, firstAtOrBefore, decide_true, if_true]
      rcases List.mem_cons.mp member with rfl | inRest
      · exact List.mem_cons_self
      · exact List.mem_cons_of_mem _ (ih sortedRest inRest)

theorem column_le_of_mem_takeWhile
    {mapping : Mapping}
    (member :
      mapping ∈ mappings.takeWhile fun mapping => mapping.generated.column ≤ column) :
    mapping.generated.column ≤ column := by
  simpa using List.mem_takeWhile_imp member

/-- The last one of sorted mappings is at the largest column. -/
theorem ByColumn.le_of_getLast?_eq
    (sorted : ByColumn mappings)
    {mapping last : Mapping}
    (isLast : mappings.getLast? = some last)
    (member : mapping ∈ mappings) :
    mapping.generated.column ≤ last.generated.column := by
  obtain ⟨before, rfl⟩ := List.getLast?_eq_some_iff.mp isLast
  rcases List.mem_append.mp member with earlier | itself
  · exact (List.pairwise_append.mp sorted).2.2 mapping earlier last List.mem_cons_self
  · rw [List.mem_singleton.mp itself]

/-- With a mapping at the column or further on, the last one at or before the
column is found. -/
theorem closestInLine_of_reached
    (sorted : ByColumn mappings)
    (distinct : ∀ first ∈ mappings, ∀ second ∈ mappings,
      first.generated.column = second.generated.column → first = second)
    {mapping : Mapping}
    (member : mapping ∈ mappings)
    (atOrBefore : mapping.generated.column ≤ column)
    (isNearest : ∀ other ∈ mappings, other.generated.column ≤ column →
      other.generated.column ≤ mapping.generated.column)
    (reached : ∃ other ∈ mappings, column ≤ other.generated.column) :
    closestInLine line column mappings = some mapping := by
  have inBefore := sorted.mem_takeWhile member atOrBefore
  cases listed : mappings with
  | nil => rw [listed] at member; cases member
  | cons first rest =>
      simp only [closestInLine]
      rw [← listed]
      generalize taken :
        mappings.takeWhile (fun mapping => mapping.generated.column ≤ column) = before
          at inBefore
      have within : ∀ other ∈ before, other ∈ mappings := by
        intro other inIt
        rw [← taken] at inIt
        exact List.takeWhile_subset _ inIt
      have sortedBefore : ByColumn before := by
        rw [← taken]
        exact sorted.sublist (List.takeWhile_sublist _)
      obtain ⟨last, isLast⟩ : ∃ last, before.getLast? = some last :=
        Option.isSome_iff_exists.mp (List.getLast?_isSome.mpr (List.ne_nil_of_mem inBefore))
      have lastInBefore : last ∈ before := List.mem_of_getLast? isLast
      have lastAtOrBefore : last.generated.column ≤ column := by
        rw [← taken] at lastInBefore
        exact column_le_of_mem_takeWhile lastInBefore
      have same : last = mapping := by
        refine distinct last (within last lastInBefore) mapping member ?_
        exact Nat.le_antisymm (isNearest last (within last lastInBefore) lastAtOrBefore)
          (sortedBefore.le_of_getLast?_eq isLast inBefore)
      rw [isLast, same]
      simp only
      split
      · rfl
      · rename_i notHit
        rw [if_neg]
        -- The mapping that is reached is not among those before the column.
        intro all
        obtain ⟨other, otherMember, further⟩ := reached
        have prefixed : before <+: mappings := taken ▸ List.takeWhile_prefix _
        rw [← prefixed.eq_of_length all] at otherMember
        rw [← taken] at otherMember
        have otherAtOrBefore := column_le_of_mem_takeWhile otherMember
        have noFurther := isNearest other (List.takeWhile_subset _ otherMember)
          otherAtOrBefore
        omega

/-- Before the first and behind the last mapping, the start of the line is
found. -/
theorem closestInLine_of_outside
    {first : Mapping}
    {rest : List Mapping}
    (outside :
      (∀ mapping ∈ first :: rest, mapping.generated.column < column) ∨
        column < first.generated.column) :
    closestInLine line column (first :: rest) = some ⟨⟨line, 0⟩, first.place⟩ := by
  simp only [closestInLine]
  rcases outside with allBefore | noneBefore
  · have all : (first :: rest).takeWhile
        (fun mapping => mapping.generated.column ≤ column) = first :: rest :=
      List.takeWhile_eq_self_iff.mpr fun mapping member =>
        decide_eq_true (allBefore mapping member).le
    rw [all]
    obtain ⟨last, isLast⟩ : ∃ last, (first :: rest).getLast? = some last :=
      Option.isSome_iff_exists.mp (List.getLast?_isSome.mpr (List.cons_ne_nil _ _))
    have lastBefore := allBefore last (List.mem_of_getLast? isLast)
    rw [isLast]
    simp only [if_neg lastBefore.ne, if_true]
  · rw [List.takeWhile_cons_of_neg (by simpa using noneBefore)]
    rfl

/-- A mapping that is found has the place of a mapping of the line. -/
theorem exists_of_closestInLine
    {found : Mapping}
    (closest : closestInLine line column mappings = some found) :
    ∃ mapping ∈ mappings, mapping.place = found.place := by
  cases mappings with
  | nil => cases closest
  | cons first rest =>
      simp only [closestInLine] at closest
      split at closest
      · cases closest
        exact ⟨first, List.mem_cons_self, rfl⟩
      · rename_i last isLast
        have lastMember : last ∈ first :: rest :=
          List.takeWhile_subset _ (List.mem_of_getLast? isLast)
        split at closest
        · exact ⟨last, lastMember, congrArg Mapping.place (Option.some.inj closest)⟩
        · split at closest
          · cases closest
            exact ⟨first, List.mem_cons_self, rfl⟩
          · exact ⟨last, lastMember, congrArg Mapping.place (Option.some.inj closest)⟩

end Line

/-! ## In a map -/

section Map

variable {map : SourceMap} {location : Location} {mapping : Mapping}

theorem mem_lineMappings_iff {line : Nat} :
    mapping ∈ map.lineMappings line ↔
      mapping ∈ map.mappings ∧ mapping.generated.line = line := by
  rw [lineMappings, (List.mergeSort_perm _ _).mem_iff, List.mem_filter, beq_iff_eq]

theorem byColumn_lineMappings (map : SourceMap) (line : Nat) :
    ByColumn (map.lineMappings line) := by
  refine (List.pairwise_mergeSort ?_ ?_ _).imp fun ordered => of_decide_eq_true ordered
  · intro first second third firstSecond secondThird
    exact decide_eq_true
      ((of_decide_eq_true firstSecond).trans (of_decide_eq_true secondThird))
  · intro first second
    simpa using Nat.le_total first.generated.column second.generated.column

/-- A mapping that is found has the place of a mapping of the map. -/
theorem exists_of_closest?
    {found : Mapping}
    (closest : map.closest? location = some found) :
    ∃ mapping ∈ map.mappings, mapping.place = found.place := by
  obtain ⟨mapping, listed, place⟩ := exists_of_closestInLine closest
  exact ⟨mapping, (mem_lineMappings_iff.mp listed).1, place⟩

/-- A look-up finds the last mapping at or before a location if the line has a
mapping there or further on. -/
theorem closest?_of_reaches
    (distinct : map.Distinct)
    (nearest : map.NearestBefore location mapping)
    (reaches : map.Reaches location) :
    map.closest? location = some mapping := by
  unfold closest?
  apply closestInLine_of_reached (map.byColumn_lineMappings location.line)
  · intro first firstListed second secondListed sameColumn
    obtain ⟨firstMember, firstLine⟩ := mem_lineMappings_iff.mp firstListed
    obtain ⟨secondMember, secondLine⟩ := mem_lineMappings_iff.mp secondListed
    refine List.inj_on_of_nodup_map distinct firstMember secondMember ?_
    rw [Location.mk.injEq]
    exact ⟨firstLine.trans secondLine.symm, sameColumn⟩
  · exact mem_lineMappings_iff.mpr ⟨nearest.member, nearest.line⟩
  · exact nearest.atOrBefore
  · intro other listed atOrBefore
    obtain ⟨member, line⟩ := mem_lineMappings_iff.mp listed
    exact nearest.last other member line atOrBefore
  · obtain ⟨other, member, line, further⟩ := reaches
    exact ⟨other, mem_lineMappings_iff.mpr ⟨member, line⟩, further⟩

/-- A look-up behind the last mapping of a line or before the first one finds
the start of the line, with the place of the leftmost mapping. -/
theorem closest?_of_outside
    (distinct : map.Distinct)
    (leftmost : map.Leftmost location.line mapping)
    (outside : ¬map.Reaches location ∨ location.column < mapping.generated.column) :
    map.closest? location = some ⟨⟨location.line, 0⟩, mapping.place⟩ := by
  have member : mapping ∈ map.lineMappings location.line :=
    mem_lineMappings_iff.mpr ⟨leftmost.member, leftmost.line⟩
  have sorted := map.byColumn_lineMappings location.line
  unfold closest?
  cases listed : map.lineMappings location.line with
  | nil => rw [listed] at member; cases member
  | cons first rest =>
      have firstListed : first ∈ map.lineMappings location.line :=
        listed ▸ List.mem_cons_self
      obtain ⟨firstMember, firstLine⟩ := mem_lineMappings_iff.mp firstListed
      rw [listed] at member sorted
      have same : mapping = first := by
        refine List.inj_on_of_nodup_map distinct leftmost.member firstMember ?_
        rw [Location.mk.injEq]
        refine ⟨leftmost.line.trans firstLine.symm,
          Nat.le_antisymm (leftmost.first first firstMember firstLine) ?_⟩
        rcases List.mem_cons.mp member with rfl | inRest
        · exact Nat.le_refl _
        · exact (List.pairwise_cons.mp sorted).1 mapping inRest
      subst same
      refine closestInLine_of_outside (outside.imp_left fun notReaches other inLine => ?_)
      rw [← listed] at inLine
      obtain ⟨otherMember, otherLine⟩ := mem_lineMappings_iff.mp inLine
      exact Nat.lt_of_not_le fun further =>
        notReaches ⟨other, otherMember, otherLine, further⟩

end Map
end SourceMap
end ComponentPipeline
