import ComponentPipeline.SourceMap.RelativePath
import ComponentPipeline.Text.Location

/-!
# Source maps

A source map says for locations of a generated text where they come from: a
location in one of its sources, perhaps with a name.  Sources and names are
kept once each and referred to by index.  Source names are stored relative to
the project root of the map.

The mappings are kept in the order in which they were added; `ordered` lists
them line by line, those of one line as added.
-/

namespace ComponentPipeline

/-- The place that a mapping leads to. -/
structure Place where
  /-- Index of the source. -/
  source : Nat
  /-- Location in the source. -/
  location : Location
  /-- Index of the name, if the place has one. -/
  name : Option Nat
  deriving DecidableEq, Repr

/-- What is known of one location of the generated text. -/
structure Mapping where
  /-- Location in the generated text. -/
  generated : Location
  /-- Where it comes from; none for text that comes from nowhere. -/
  place : Option Place
  deriving DecidableEq, Repr

/-- A source map. -/
structure SourceMap where
  /-- Directory that source names are relative to. -/
  projectRoot : Text
  /-- Names of the sources. -/
  sources : List Text
  /-- Texts of the first sources. -/
  contents : List Text
  /-- Names that places in sources have. -/
  names : List Text
  /-- The mappings, as added. -/
  mappings : List Mapping
  deriving DecidableEq, Repr

/-- What can be wrong with an index in a source map. -/
inductive SourceMapError
  | sourceOutOfRange
  | nameOutOfRange
  deriving DecidableEq, Repr

/-- The error in words. -/
def SourceMapError.message : SourceMapError → Text
  | .sourceOutOfRange => "[parcel-sourcemap] Source out of range"
  | .nameOutOfRange => "[parcel-sourcemap] Name out of range"

namespace SourceMap

/-- A map without sources and mappings. -/
def empty (projectRoot : Text) : SourceMap :=
  ⟨projectRoot, [], [], [], []⟩

/-- The index of an item in a list, and the list with the item in it. -/
def indexIn (item : Text) (list : List Text) : Nat × List Text :=
  match list.idxOf? item with
  | some index => (index, list)
  | none => (list.length, list ++ [item])

/-- Adds a source, and gives its index. -/
def addSource (map : SourceMap) (source : Text) : Nat × SourceMap :=
  let (index, sources) := indexIn (SourceName.relative map.projectRoot source) map.sources
  (index, { map with sources })

/-- The index of a source. -/
def sourceIndex? (map : SourceMap) (source : Text) : Option Nat :=
  map.sources.idxOf? (SourceName.relative map.projectRoot source)

/-- Adds sources one after another, and gives their indices. -/
def addSources (map : SourceMap) : List Text → List Nat × SourceMap
  | [] => ([], map)
  | source :: rest =>
      let (index, map) := map.addSource source
      let (indices, map) := map.addSources rest
      (index :: indices, map)

/-- Adds a name, and gives its index. -/
def addName (map : SourceMap) (name : Text) : Nat × SourceMap :=
  let (index, names) := indexIn name map.names
  (index, { map with names })

/-- Adds names one after another, and gives their indices. -/
def addNames (map : SourceMap) : List Text → List Nat × SourceMap
  | [] => ([], map)
  | name :: rest =>
      let (index, map) := map.addName name
      let (indices, map) := map.addNames rest
      (index :: indices, map)

/-- The name of a source. -/
def source (map : SourceMap) (index : Nat) : Except SourceMapError Text :=
  match map.sources[index]? with
  | some source => .ok source
  | none => .error .sourceOutOfRange

/-- A name. -/
def name (map : SourceMap) (index : Nat) : Except SourceMapError Text :=
  match map.names[index]? with
  | some name => .ok name
  | none => .error .nameOutOfRange

/-- The text of a source, if it is held. -/
def content? (map : SourceMap) (index : Nat) : Option Text :=
  map.contents[index]?

/-- Writes the text of a source. -/
def setContent
    (map : SourceMap)
    (index : Nat)
    (content : Text) :
    Except SourceMapError SourceMap :=
  if index < map.sources.length then
    let missing := index + 1 - map.contents.length
    let padded := map.contents ++ List.replicate missing []
    .ok { map with contents := padded.set index content }
  else
    .error .sourceOutOfRange

/-- Adds a mapping. -/
def add (map : SourceMap) (mapping : Mapping) : SourceMap :=
  { map with mappings := map.mappings ++ [mapping] }

/-- Adds mappings. -/
def addAll (map : SourceMap) (mappings : List Mapping) : SourceMap :=
  { map with mappings := map.mappings ++ mappings }

/-- The mappings line by line, those of one line as added. -/
def ordered (map : SourceMap) : List Mapping :=
  map.mappings.mergeSort fun first second =>
    first.generated.line ≤ second.generated.line

/-- A map with one source and its text. -/
def ofSource (projectRoot source content : Text) : SourceMap :=
  let name := SourceName.relative projectRoot source
  { projectRoot, sources := [name], contents := [content], names := [], mappings := [] }

/-- The map that leads the start of every line of a source to itself. -/
def ofLines (projectRoot source content : Text) : SourceMap :=
  (ofSource projectRoot source content).addAll <|
    (List.range (Text.fileLines content).length).map fun line =>
      ⟨⟨line, 0⟩, some ⟨0, ⟨line, 0⟩, none⟩⟩

end SourceMap
end ComponentPipeline
