import ComponentPipeline.Json.Reader
import ComponentPipeline.Path.Basic

/-!
# Diagnostics

A diagnostic describes a failure to a user.  In JSON it is an object with one
member for each part, or an array of all parts in order.  A reader passes over
members that it does not know and refuses a known member that is written
twice.
-/

namespace ComponentPipeline

namespace Json

/-- Whether an object writes each of the given keys at most once. -/
def writesOnce (keys : List Text) (members : List (Text × Json)) : Bool :=
  keys.all fun key => (members.filter fun (written, _) => written == key).length ≤ 1

/-- A value that may be null. -/
def nullable? {α : Type} (read : Json → Option α) : Json → Option (Option α)
  | .null => some none
  | value => (read value).map some

/-- A member that may be absent or null. -/
def optionalMember?
    {α : Type}
    (read : Json → Option α)
    (key : Text)
    (members : Table Json) :
    Option (Option α) :=
  match Table.get? key members with
  | none => some none
  | some value => nullable? read value

/-- The texts of an array of strings. -/
def texts? (value : Json) : Option (List Text) :=
  value.items?.bind fun items => items.mapM text?

/-- A text that may be absent. -/
def ofOptionalText : Option Text → Json
  | none => .null
  | some text => .string text

end Json

/-- A description of a failure. -/
structure Diagnostic where
  /-- What happened. -/
  message : Text
  /-- Which part of the program says so. -/
  origin : Option Text
  /-- Name of the kind of failure. -/
  name : Option Text
  /-- Canonical language of the block that failed. -/
  language : Option Text
  /-- The component or the file that it refers to. -/
  filePath : Option Path
  /-- What a user may do. -/
  hints : Option (List Text)
  deriving DecidableEq, Repr

namespace Diagnostic

/-- The keys of a diagnostic in JSON. -/
def keys : List Text :=
  ["message", "origin", "name", "language", "filePath", "hints"]

/-- A diagnostic as an object. -/
def toJson (diagnostic : Diagnostic) : Json :=
  .object [
    ("message", .string diagnostic.message),
    ("origin", .ofOptionalText diagnostic.origin),
    ("name", .ofOptionalText diagnostic.name),
    ("language", .ofOptionalText diagnostic.language),
    ("filePath", .ofOptionalText diagnostic.filePath),
    ("hints",
      match diagnostic.hints with
      | none => .null
      | some hints => .array (hints.map .string))]

/-- The diagnostic that the members of an object write. -/
def ofMembers? (members : List (Text × Json)) : Option Diagnostic := do
  guard (Json.writesOnce keys members)
  let message ← (Table.get? "message" members).bind Json.text?
  let origin ← Json.optionalMember? Json.text? "origin" members
  let name ← Json.optionalMember? Json.text? "name" members
  let language ← Json.optionalMember? Json.text? "language" members
  let filePath ← Json.optionalMember? Json.text? "filePath" members
  let hints ← Json.optionalMember? Json.texts? "hints" members
  return ⟨message, origin, name, language, filePath, hints⟩

/-- The diagnostic that a value writes. -/
def ofJson? : Json → Option Diagnostic
  | .object members => ofMembers? members
  | .array [message, origin, name, language, filePath, hints] => do
      return ⟨← message.text?, ← Json.nullable? Json.text? origin,
        ← Json.nullable? Json.text? name, ← Json.nullable? Json.text? language,
        ← Json.nullable? Json.text? filePath, ← Json.nullable? Json.texts? hints⟩
  | _ => none

/-- The diagnostic that a text writes. -/
def ofText? (text : Text) : Option Diagnostic :=
  (Json.ofTextKnowing? keys text).bind ofJson?

end Diagnostic
end ComponentPipeline
