import ComponentPipeline.Content.Indentation
import ComponentPipeline.Json.Basic
import ComponentPipeline.SourceMap.Basic

/-!
# Preparing the content of a block

Before the first transformer sees a content, its common indentation may be
removed and data may be put before it on lines of their own.  Both are asked
for by an options object; any other options value asks for nothing.  The data
are never stripped.

A prepared content remembers how many lines were put before it and how much
indentation went, which is what its source map is made of.
-/

namespace ComponentPipeline

/-- A content ready for its first transformer. -/
structure Prepared where
  /-- The prepared text. -/
  code : Text
  /-- Number of lines put before the content. -/
  prependedLines : Nat
  /-- Number of characters removed from the start of indented lines. -/
  indent : Nat
  deriving DecidableEq, Repr

namespace Prepared

/-- The data to be put before a content, unless there are none. -/
def prependData? (options : Table Json) : Option Text :=
  ((Table.get? "prependData" options).bind Json.text?).filter fun data => !data.isEmpty

/-- Whether the indentation is to be removed. -/
def stripsIndent (options : Table Json) : Bool :=
  ((Table.get? "stripIndent" options).map Json.isTruthy).getD false

/-- A content prepared as the members of an options object ask. -/
def ofMembers (content : Text) (options : Table Json) : Prepared :=
  let (code, indent) :=
    if stripsIndent options then stripIndent content else (content, 0)
  match prependData? options with
  | some data => ⟨data ++ '\n' :: code, data.count '\n' + 1, indent⟩
  | none => ⟨code, 0, indent⟩

/-- A content prepared as an options value asks. -/
def ofContent (content : Text) (options : Json) : Prepared :=
  match options with
  | .object members => ofMembers content members
  | _ => ⟨content, 0, 0⟩

/-- Whether locations in the prepared text differ from those in the
content. -/
def isShifted (prepared : Prepared) : Bool :=
  0 < prepared.prependedLines || 0 < prepared.indent

/-- The mappings of the lines of a content from the given line on. -/
def lineMappings (prepared : Prepared) (line : Nat) : List Text → List Mapping
  | [] => []
  | text :: rest =>
      ⟨⟨line + prepared.prependedLines, 0⟩,
        some ⟨0, ⟨line, removedWidth prepared.indent text⟩, none⟩⟩ ::
        prepared.lineMappings (line + 1) rest

/-- The map that leads the start of every prepared line to the place in the
content where its text starts. -/
def sourceMap
    (prepared : Prepared)
    (source content projectRoot : Text) :
    SourceMap :=
  (SourceMap.ofSource projectRoot source content).addAll
    (prepared.lineMappings 0 (Text.lines content))

end Prepared

/-- The text of a content prepared as an options value asks. -/
def prepareContent (content : Text) (options : Json) : Text :=
  (Prepared.ofContent content options).code

end ComponentPipeline
