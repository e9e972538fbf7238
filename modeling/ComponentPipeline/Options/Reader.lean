import ComponentPipeline.Json.Reader
import ComponentPipeline.Options.Basic

/-!
# Reading options

Options are written as a JSON object.  Five keys are known, and each may be
written once.  A value of a wrong form under a known key is an error; the
other keys are kept with their last values.
-/

namespace ComponentPipeline
namespace Options

/-- The known keys. -/
def knownKeys : List Text :=
  ["stripIndent", "prependData", "aliases", "transformers", "sourceMap"]

/-- An alias: a token and a language. -/
def aliasOfJson? : Json → Option (Text × Text)
  | .array [.string token, .string language] => some (token, language)
  | _ => none

/-- A list of aliases. -/
def aliasesOfJson? (value : Json) : Option (List (Text × Text)) :=
  value.items?.bind fun items => items.mapM aliasOfJson?

/-- A table of settings. -/
def settingsOfJson? (value : Json) : Option (Table Setting) := do
  let members ← value.members?
  let settings ← members.mapM fun (language, value) =>
    (Setting.ofJson? value.settle).map fun setting => (language, setting)
  return Table.putAllSorted settings []

/-- The value of a key that may be absent. -/
def memberOr
    {α : Type}
    (default : α)
    (read : Json → Option α)
    (key : Text)
    (members : Table Json) :
    Option α :=
  match Table.get? key members with
  | none => some default
  | some value => read value

/-- The options that the members of an object write. -/
def ofMembers? (members : List (Text × Json)) : Option Options := do
  guard (Json.writesOnce knownKeys members)
  let stripIndent ← memberOr false Json.bool? "stripIndent" members
  let prependData ←
    memberOr none (Json.nullable? Json.text?) "prependData" members
  let aliases ← memberOr [] aliasesOfJson? "aliases" members
  let transformers ← memberOr [] settingsOfJson? "transformers" members
  let sourceMap ← memberOr false Json.bool? "sourceMap" members
  let others := members.filter fun (key, _) => !knownKeys.contains key
  let shorthand := others.map fun (key, value) => (key, value.settle)
  return {
    stripIndent, prependData, aliases, transformers, sourceMap
    onBefore := none
    shorthand := Table.putAllSorted shorthand [] }

/-- The options that a value writes. -/
def ofJson? : Json → Option Options
  | .object members => ofMembers? members
  | _ => none

/-- The options that a text writes. -/
def ofText? (text : Text) : Option Options :=
  (Json.ofText? text).bind ofJson?

end Options
end ComponentPipeline
