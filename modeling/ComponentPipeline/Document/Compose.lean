import ComponentPipeline.Document.Splice
import ComponentPipeline.SourceMap.Closest

/-!
# Composing the maps of two splices

The later map leads from the final document to the intermediate one and to
files of its own; the earlier map leads from the intermediate document to the
first one.  A place in the intermediate document is looked up in the earlier
map, and keeps its distance from the mapping found on its line.  Places in
other files are kept as they are.  A mapping whose place leads nowhere is
dropped.
-/

namespace ComponentPipeline

/-- Where a location of the intermediate document comes from. -/
def placeBefore (earlier : SourceMap) (location : Location) : Option Place :=
  match earlier.closest? location with
  | none => none
  | some found =>
      found.place.map fun place =>
        if found.generated.line = location.line ∧
            found.generated.column ≤ location.column then
          let distance := location.column - found.generated.column
          let start := place.location
          { place with location := ⟨start.line, start.column + distance⟩ }
        else
          place

/-- Adds a mapping of the later map; `document` is the index of the
intermediate document among its sources. -/
def composeMapping
    (later earlier : SourceMap)
    (document : Option Nat)
    (composed : SourceMap)
    (mapping : Mapping) :
    Except SourceMapError SourceMap :=
  match mapping.place with
  | none => .ok composed
  | some place => do
      let (name, composed) ← composed.copyName later place.name
      if some place.source = document then
        match placeBefore earlier place.location with
        | none => return composed
        | some first =>
            let (source, composed) ← composed.copySource earlier first.source []
            return composed.add
              ⟨mapping.generated, some ⟨source, first.location, name⟩⟩
      else
        let (source, composed) ← composed.copySource later place.source []
        return composed.add
          ⟨mapping.generated, some ⟨source, place.location, name⟩⟩

/-- Adds mappings of the later map one after another. -/
def composeMappings
    (later earlier : SourceMap)
    (document : Option Nat)
    (composed : SourceMap) :
    List Mapping → Except SourceMapError SourceMap
  | [] => .ok composed
  | mapping :: rest => do
      let composed ← composeMapping later earlier document composed mapping
      composeMappings later earlier document composed rest

/-- The map from the final document to the first one. -/
def composeMaps
    (later earlier : SourceMap)
    (source projectRoot : Path) :
    Except SourceMapError SourceMap :=
  composeMappings later earlier (later.sourceIndex? source)
    (SourceMap.empty projectRoot) later.ordered

end ComponentPipeline
