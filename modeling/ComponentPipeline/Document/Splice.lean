import ComponentPipeline.Block.Basic
import ComponentPipeline.ComponentError

/-!
# Splicing processed blocks into a document

Replacements are applied in the order of the document.  One that starts before
the end of an earlier one, or reaches past the end of the document, is passed
over.  What the new document consists of is a plan of copied and inserted
pieces; its text and its source map are both read off that plan.

A copied piece is mapped line by line to where it stands in the document.  The
map of an inserted code is shifted to where the code lands; if the code comes
from a content that stands in the document, places in the document are shifted
to where that content starts.
-/

namespace ComponentPipeline

/-- A processed code that replaces a part of a document. -/
structure Replacement where
  /-- The part of the document. -/
  span : Span
  /-- Written before the code. -/
  opening : Text
  /-- The code. -/
  code : Text
  /-- Written after the code. -/
  closing : Text
  /-- Leads from the code back to the content that it was made from. -/
  map : Option SourceMap
  /-- Where that content starts, if it stands in the document. -/
  inlineStart : Option Location

/-- What a replacement writes. -/
def Replacement.text (replacement : Replacement) : Text :=
  replacement.opening ++ replacement.code ++ replacement.closing

/-! ## The plan -/

/-- A piece of the new document. -/
inductive SplicePiece
  /-- Text of the document from a location on. -/
  | copied (text : Text) (start : Location)
  /-- What a replacement writes. -/
  | inserted (replacement : Replacement)

namespace SplicePiece

/-- The text of a piece. -/
def text : SplicePiece → Text
  | .copied text _ => text
  | .inserted replacement => replacement.text

end SplicePiece

/-- Whether a replacement is passed over when the document is written up to
`cursor`. -/
def Replacement.isSkipped
    (replacement : Replacement)
    (cursor documentSize : Nat) :
    Bool :=
  replacement.span.start < cursor || documentSize < replacement.span.stop

/-- The pieces of the new document from an offset on, for replacements by
increasing start; the offset is at the given location. -/
def planFrom
    (document : Text)
    (cursor : Nat)
    (location : Location) :
    List Replacement → List SplicePiece
  | [] => [.copied (Text.dropBytes cursor document) location]
  | replacement :: rest =>
      let span := replacement.span
      if replacement.isSkipped cursor (Text.size document) then
        planFrom document cursor location rest
      else
        let unchanged := Text.slice cursor span.start document
        let replaced := Text.slice span.start span.stop document
        .copied unchanged location :: .inserted replacement ::
          planFrom document span.stop
            ((location.advance unchanged).advance replaced) rest

/-- Replacements by increasing start, those with one start in the given
order. -/
def byStart (replacements : List Replacement) : List Replacement :=
  replacements.mergeSort fun first second => first.span.start ≤ second.span.start

/-- The pieces of the new document. -/
def splicePlan (document : Text) (replacements : List Replacement) : List SplicePiece :=
  planFrom document 0 Location.origin (byStart replacements)

/-- The text of the new document. -/
def spliceText (plan : List SplicePiece) : Text :=
  plan.flatMap SplicePiece.text

/-! ## The source map -/

/-- The mappings of the further lines of a copied text. -/
def furtherLineMappings
    (source generatedLine documentLine : Nat) :
    List Text → List Mapping
  | [] => []
  | line :: rest =>
      let later := furtherLineMappings source (generatedLine + 1) (documentLine + 1) rest
      if line.isEmpty then later
      else ⟨⟨generatedLine, 0⟩, some ⟨source, ⟨documentLine, 0⟩, none⟩⟩ :: later

/-- The mappings of a copied text, one for every line that is not empty. -/
def copiedMappings
    (source : Nat)
    (generated start : Location)
    (text : Text) :
    List Mapping :=
  match Text.lines text with
  | [] => []
  | first :: rest =>
      let later := furtherLineMappings source (generated.line + 1) (start.line + 1) rest
      if first.isEmpty then later
      else ⟨generated, some ⟨source, start, none⟩⟩ :: later

namespace SourceMap

/-- Takes over a source of another map, and gives its index.  Its text is taken
over as well, unless it is empty or the source is the document. -/
def copySource
    (target origin : SourceMap)
    (index : Nat)
    (document : Text) :
    Except SourceMapError (Nat × SourceMap) := do
  let name ← origin.source index
  let (copied, target) := target.addSource name
  if name = document then
    return (copied, target)
  else
    match origin.content? index with
    | none => return (copied, target)
    | some [] => return (copied, target)
    | some content =>
        let target ← target.setContent copied content
        return (copied, target)

/-- Takes over the first sources of another map, and gives their indices. -/
def copySources
    (target origin : SourceMap)
    (document : Text) :
    List Nat → Except SourceMapError (List Nat × SourceMap)
  | [] => .ok ([], target)
  | index :: rest => do
      let (copied, target) ← target.copySource origin index document
      let (others, target) ← target.copySources origin document rest
      return (copied :: others, target)

/-- Takes over a name of another map, and gives its index. -/
def copyName
    (target origin : SourceMap) :
    Option Nat → Except SourceMapError (Option Nat × SourceMap)
  | none => .ok (none, target)
  | some index => do
      let name ← origin.name index
      let (copied, target) := target.addName name
      return (some copied, target)

end SourceMap

/-- Where the map of an inserted code goes. -/
structure Insertion where
  /-- Index of the document among the sources. -/
  document : Nat
  /-- Where the code lands. -/
  generatedStart : Location
  /-- Where its content starts, if it stands in the document. -/
  inlineStart : Option Location
  /-- Indices of the sources of the inserted map. -/
  sources : List Nat

namespace Insertion

/-- A location in a source, shifted if it is in the document. -/
def locate (insertion : Insertion) (source : Nat) (location : Location) : Location :=
  match insertion.inlineStart with
  | some start => if source = insertion.document then start.offsetBy location else location
  | none => location

/-- Adds a mapping of an inserted map; one into a source that the inserted map
does not have is dropped. -/
def addMapping
    (insertion : Insertion)
    (inserted target : SourceMap)
    (mapping : Mapping) :
    Except SourceMapError SourceMap :=
  let generated := insertion.generatedStart.offsetBy mapping.generated
  match mapping.place with
  | none => .ok (target.add ⟨generated, none⟩)
  | some place =>
      match insertion.sources[place.source]? with
      | none => .ok target
      | some source => do
          let (name, target) ← target.copyName inserted place.name
          let location := insertion.locate source place.location
          return target.add ⟨generated, some ⟨source, location, name⟩⟩

/-- Adds mappings of an inserted map one after another. -/
def addMappings
    (insertion : Insertion)
    (inserted target : SourceMap) :
    List Mapping → Except SourceMapError SourceMap
  | [] => .ok target
  | mapping :: rest => do
      let target ← insertion.addMapping inserted target mapping
      insertion.addMappings inserted target rest

end Insertion

/-- Adds the map of an inserted code that lands at a location. -/
def insertMap
    (target : SourceMap)
    (document : Nat)
    (documentName : Text)
    (generatedStart : Location)
    (inlineStart : Option Location)
    (inserted : SourceMap) :
    Except SourceMapError SourceMap := do
  let indices := List.range inserted.sources.length
  let (sources, target) ← target.copySources inserted documentName indices
  let insertion : Insertion := ⟨document, generatedStart, inlineStart, sources⟩
  insertion.addMappings inserted target inserted.ordered

/-- Adds the mappings of pieces that are written from a location on. -/
def mapPieces
    (document : Nat)
    (documentName : Text)
    (target : SourceMap)
    (generated : Location) :
    List SplicePiece → Except SourceMapError SourceMap
  | [] => .ok target
  | .copied text start :: rest =>
      mapPieces document documentName
        (target.addAll (copiedMappings document generated start text))
        (generated.advance text) rest
  | .inserted replacement :: rest => do
      let start := generated.advance replacement.opening
      let target ←
        match replacement.map with
        | none => .ok target
        | some inserted =>
            insertMap target document documentName start replacement.inlineStart inserted
      mapPieces document documentName target
        ((start.advance replacement.code).advance replacement.closing) rest

/-- The source map of the new document. -/
def spliceMap
    (document : Text)
    (filename projectRoot : Path)
    (plan : List SplicePiece) :
    Except SourceMapError SourceMap :=
  mapPieces 0 (SourceName.relative projectRoot filename)
    (SourceMap.ofSource projectRoot filename document) Location.origin plan

/-- A document with parts replaced, and its source map if one is asked for. -/
def splice
    (document : Text)
    (filename projectRoot : Path)
    (replacements : List Replacement)
    (withMap : Bool) :
    Except ComponentError (Text × Option SourceMap) :=
  let plan := splicePlan document replacements
  if withMap then
    match spliceMap document filename projectRoot plan with
    | .ok map => .ok (spliceText plan, some map)
    | .error error => .error (.ofSourceMapError error)
  else
    .ok (spliceText plan, none)

end ComponentPipeline
