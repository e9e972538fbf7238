import ComponentPipeline.SourceMap.Basic

/-!
# The mapping closest to a location

A location is looked up among the mappings of its line, in the order of their
columns.  A mapping at the very column answers.  Otherwise the last mapping
before the column answers, unless no mapping of the line comes after it or
none before: then the start of the line answers, with the place that the first
mapping of the line leads to.
-/

namespace ComponentPipeline
namespace SourceMap

/-- The mappings of a generated line, by column. -/
def lineMappings (map : SourceMap) (line : Nat) : List Mapping :=
  (map.mappings.filter fun mapping => mapping.generated.line == line).mergeSort
    fun first second => first.generated.column ≤ second.generated.column

/-- The mapping among those of a line, by column, that is closest to a
column. -/
def closestInLine (line column : Nat) : List Mapping → Option Mapping
  | [] => none
  | first :: rest =>
      let mappings := first :: rest
      let lineStart : Mapping := ⟨⟨line, 0⟩, first.place⟩
      let before := mappings.takeWhile fun mapping => mapping.generated.column ≤ column
      match before.getLast? with
      | none => some lineStart
      | some last =>
          if last.generated.column = column then some last
          else if before.length = mappings.length then some lineStart
          else some last

/-- The mapping closest to a location. -/
def closest? (map : SourceMap) (location : Location) : Option Mapping :=
  closestInLine location.line location.column (map.lineMappings location.line)

end SourceMap
end ComponentPipeline
