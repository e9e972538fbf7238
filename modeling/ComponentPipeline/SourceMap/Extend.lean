import ComponentPipeline.SourceMap.Closest

/-!
# Chaining source maps

A later map leads from a final text to an intermediate text, an earlier map
from the intermediate text on.  The later map, extended by the earlier one,
leads from the final text to where the earlier map leads.  A place that the
earlier map knows nothing of is dropped from its mapping.
-/

namespace ComponentPipeline
namespace SourceMap

/-- Writes the texts of sources under the given indices, in order; sources
without a text are passed over. -/
def setContents (map : SourceMap) :
    List (Nat × Text) → Except SourceMapError SourceMap
  | [] => .ok map
  | (index, content) :: rest => do
      let map ← map.setContent index content
      map.setContents rest

/-- The entry of an index table, or an error. -/
def renumber
    (table : List Nat)
    (index : Nat)
    (error : SourceMapError) :
    Except SourceMapError Nat :=
  match table[index]? with
  | some renumbered => .ok renumbered
  | none => .error error

/-- The place that an earlier map gives for a place in the intermediate text,
with its indices looked up in the tables `sources` and `names`. -/
def extendPlace
    (earlier : SourceMap)
    (sources names : List Nat)
    (place : Place) :
    Except SourceMapError (Option Place) :=
  match (earlier.closest? place.location).bind Mapping.place with
  | none => .ok none
  | some found => do
      let source ← renumber sources found.source .sourceOutOfRange
      let name ← found.name.mapM fun name => renumber names name .nameOutOfRange
      return some ⟨source, found.location, name⟩

/-- A mapping whose place is looked up in the earlier map. -/
def extendMapping
    (earlier : SourceMap)
    (sources names : List Nat)
    (mapping : Mapping) :
    Except SourceMapError Mapping :=
  match mapping.place with
  | none => .ok mapping
  | some place => do
      let place ← extendPlace earlier sources names place
      return { mapping with place }

/-- A later map whose places are looked up in an earlier map. -/
def extend (later earlier : SourceMap) : Except SourceMapError SourceMap := do
  let (sources, map) := later.addSources earlier.sources
  let (names, map) := map.addNames earlier.names
  let map ← map.setContents (sources.zip earlier.contents)
  let mappings ← map.ordered.mapM (extendMapping earlier sources names)
  return { map with mappings }

end SourceMap
end ComponentPipeline
