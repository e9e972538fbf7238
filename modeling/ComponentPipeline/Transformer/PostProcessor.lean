import ComponentPipeline.Diagnostic
import ComponentPipeline.Text.Shown
import ComponentPipeline.Transformer.Result

/-!
# Options of the post-processor of styles

The post-processor adds what browsers need and may shorten the text.  The
browsers are given by one query or a list of queries, or not at all.  How a
stylesheet is compiled is left to a compiler; here is only what the options
mean and what is said about wrong ones.
-/

namespace ComponentPipeline

/-- Which browsers to write for. -/
inductive Browsers
  | query (text : Text)
  | list (queries : List Text)
  deriving DecidableEq, Repr

/-- The queries one by one. -/
def Browsers.queries : Browsers → List Text
  | .query text => [text]
  | .list queries => queries

/-- The browsers that a value names. -/
def Browsers.ofJson? : Json → Option Browsers
  | .string text => some (.query text)
  | value => value.texts?.map .list

/-- Options of the post-processor. -/
structure PostProcessorConfig where
  /-- The browsers, if any are named. -/
  browsers : Option Browsers
  /-- Whether the text is shortened. -/
  minify : Bool
  deriving DecidableEq, Repr

namespace PostProcessorConfig

/-- The message about browsers that are neither a query nor a list of
queries. -/
def wrongBrowsers : Text :=
  "data did not match any variant of untagged enum BrowsersConfig"

/-- A character inside a quoted text of a message. -/
def quotedChar (char : Char) : Text :=
  if char = '"' then ['\\', '"']
  else if char = '\\' then ['\\', '\\']
  else if char = '\n' then ['\\', 'n']
  else if char = '\r' then ['\\', 'r']
  else if char = '\t' then ['\\', 't']
  else if char.toNat = 0 then ['\\', '0']
  else if Text.isShown char then [char]
  else "\\u\x7b" ++ Nat.toDigits 16 char.toNat ++ "\x7d"

/-- What a value is, in the words of a message. -/
def describe : Json → Text
  | .null => "null"
  | .bool value => "boolean `" ++ (if value then "true" else "false" : Text) ++ "`"
  | .number (.integer value) => "integer `" ++ Json.Number.integerText value ++ "`"
  | .number value => "floating point `" ++ value.text ++ "`"
  | .string text => "string \"" ++ text.flatMap quotedChar ++ "\""
  | .array _ => "sequence"
  | .object _ => "map"

/-- The options with one more member of an options object, or what is wrong
with it. -/
def readMember
    (config : PostProcessorConfig)
    (key : Text)
    (value : Json) :
    Except Text PostProcessorConfig :=
  if key = "browsers" then
    match Json.nullable? Browsers.ofJson? value with
    | some browsers => .ok { config with browsers }
    | none => .error wrongBrowsers
  else if key = "minify" then
    match value.bool? with
    | some minify => .ok { config with minify }
    | none => .error ("invalid type: " ++ describe value ++ ", expected a boolean")
  else
    .ok config

/-- The options that the members of an object write, or what is wrong with the
first wrong one. -/
def ofMembers (members : Table Json) : Except Text PostProcessorConfig :=
  members.foldlM (fun config (key, value) => config.readMember key value) ⟨none, false⟩

/-- The options that a value writes: an object, or an array of the browsers
and perhaps the flag. -/
def ofJson? : Json → Option PostProcessorConfig
  | .object members => (ofMembers members).toOption
  | .array [browsers] => do
      return ⟨← Json.nullable? Browsers.ofJson? browsers, false⟩
  | .array [browsers, minify] => do
      return ⟨← Json.nullable? Browsers.ofJson? browsers, ← minify.bool?⟩
  | _ => none

end PostProcessorConfig

/-- A compiler of stylesheets. -/
abbrev StyleCompiler := PostProcessorConfig → Context → Text → Except Text Result

/-- A style content compiled under the options of its stage. -/
def postprocess
    (compile : StyleCompiler)
    (context : Context)
    (content : Text) :
    Except Failure Result :=
  match PostProcessorConfig.ofMembers context.options with
  | .error message => .error (.other ("Invalid postcss options: " ++ message))
  | .ok config => (compile config context content).mapError .other

end ComponentPipeline
