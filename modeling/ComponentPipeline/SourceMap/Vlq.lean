import ComponentPipeline.Json.Basic
import ComponentPipeline.SourceMap.Basic

/-!
# Source maps in JSON

The version 3 format writes the mappings as one text.  Semicolons end lines,
commas separate the mappings of a line, and a mapping is a group of one, four
or five signed numbers: column, source, line and column of the place, and
name, each as the difference from the one written before it.  The column of
the generated text starts from zero on every line.
-/

namespace ComponentPipeline
namespace SourceMap

/-! ## Signed numbers in base 64 -/

/-- A digit of base 64. -/
def base64Char (digit : Nat) : Char :=
  if digit < 26 then Char.ofNat (0x41 + digit)
  else if digit < 52 then Char.ofNat (0x61 + (digit - 26))
  else if digit < 62 then Char.ofNat (0x30 + (digit - 52))
  else if digit = 62 then '+'
  else '/'

/-- A number in groups of five bits, least group first; a group that is not
the last has the sixth bit set. -/
def groupsText (value : Nat) : Text :=
  if value < 32 then [base64Char value]
  else base64Char (32 + value % 32) :: groupsText (value / 32)
termination_by value
decreasing_by omega

/-- A signed number: its sign is the lowest bit. -/
def signedText (value : Int) : Text :=
  if value < 0 then groupsText (2 * value.natAbs + 1)
  else groupsText (2 * value.natAbs)

/-! ## Mappings -/

/-- The numbers written last. -/
structure VlqState where
  /-- Line of the generated text. -/
  line : Nat
  /-- Column of the generated text, none before the first mapping of a line. -/
  column : Option Nat
  /-- Index of the source. -/
  source : Nat
  /-- Location in the source. -/
  location : Location
  /-- Index of the name. -/
  name : Nat

/-- The difference between a number and the one written before it. -/
def difference (value before : Nat) : Text :=
  signedText ((value : Int) - before)

/-- The group of a mapping, after the ones written so far. -/
def mappingText (state : VlqState) (mapping : Mapping) : Text × VlqState :=
  let lineBreaks := List.replicate (mapping.generated.line - state.line) ';'
  let column := if state.line < mapping.generated.line then none else state.column
  let comma : Text := if column.isSome then [','] else []
  let head :=
    lineBreaks ++ comma ++ difference mapping.generated.column (column.getD 0)
  let state :=
    { state with
      line := mapping.generated.line
      column := some mapping.generated.column }
  match mapping.place with
  | none => (head, state)
  | some place =>
      let text :=
        head ++ difference place.source state.source ++
          difference place.location.line state.location.line ++
          difference place.location.column state.location.column
      let state :=
        { state with source := place.source, location := place.location }
      match place.name with
      | none => (text, state)
      | some name => (text ++ difference name state.name, { state with name })

/-- The text of mappings in order, after the ones written so far. -/
def mappingsText (state : VlqState) : List Mapping → Text
  | [] => []
  | mapping :: rest =>
      let (text, state) := mappingText state mapping
      text ++ mappingsText state rest

/-- The mappings by line and column. -/
def positioned (map : SourceMap) : List Mapping :=
  map.mappings.mergeSort fun first second =>
    first.generated.line < second.generated.line ||
      (first.generated.line == second.generated.line &&
        first.generated.column ≤ second.generated.column)

/-- The mappings of a map as one text. -/
def vlq (map : SourceMap) : Text :=
  mappingsText ⟨0, none, 0, Location.origin, 0⟩ map.positioned

/-- A map in the version 3 format. -/
def toJson (map : SourceMap) : Json :=
  .object [
    ("version", .number (.integer 3)),
    ("sourceRoot", .null),
    ("mappings", .string map.vlq),
    ("sources", .array (map.sources.map .string)),
    ("sourcesContent", .array (map.contents.map .string)),
    ("names", .array (map.names.map .string))]

end SourceMap
end ComponentPipeline
