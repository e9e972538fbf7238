import ComponentPipeline.Text.Blank

/-!
# Common indentation

The indentation of a line is its leading run of spaces and tabs.  The common
indentation of a text is the shortest one among its lines that are not blank;
that many characters are removed from every line that has as many.
-/

namespace ComponentPipeline

/-- The characters of an indentation. -/
def isIndentChar (char : Char) : Bool :=
  char == ' ' || char == '\t'

/-- The length of the indentation of a line. -/
def indentWidth (line : Text) : Nat :=
  (line.takeWhile isIndentChar).length

/-- The indentation shared by the lines that are not blank; zero if all are
blank. -/
def commonIndent (lines : List Text) : Nat :=
  ((lines.filter fun line => !Text.isBlankText line).map indentWidth).min?.getD 0

/-- How much of a line goes when an indentation is removed: all of it or
nothing. -/
def removedWidth (indent : Nat) (line : Text) : Nat :=
  if indent ≤ indentWidth line then indent else 0

/-- A text without its common indentation, and the length of that. -/
def stripIndent (content : Text) : Text × Nat :=
  let lines := Text.lines content
  let indent := commonIndent lines
  (Text.ofLines (lines.map fun line => line.drop (removedWidth indent line)), indent)

end ComponentPipeline
