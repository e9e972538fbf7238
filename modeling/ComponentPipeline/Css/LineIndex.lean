import ComponentPipeline.Css.Tree

/-!
# Positions from an index of lines

The offsets at which the lines of a text start are listed once.  The line of
an offset is then the last one that starts at or before it, and the column is
the width of the text between the start of that line and the offset.
-/

namespace ComponentPipeline
namespace Css

/-- The offsets at which lines start after the first one, for a text that
itself starts at `offset`. -/
def laterLineStarts (offset : Nat) : Text → List Nat
  | [] => []
  | char :: rest =>
      let next := offset + char.utf8Size
      if char = '\n' then next :: laterLineStarts next rest
      else laterLineStarts next rest

/-- The offsets at which the lines of a text start. -/
def lineStarts (text : Text) : List Nat :=
  0 :: laterLineStarts 0 text

/-- The position of an offset in a text with the given line starts. -/
def positionIn (starts : List Nat) (text : Text) (offset : Nat) : Position :=
  let line := (starts.takeWhile fun start => start ≤ offset).length - 1
  let lineStart := starts.getD line 0
  ⟨⟨line, Text.units (Text.slice lineStart offset text)⟩, offset⟩

/-- The position of an offset in a text. -/
def positionOf (text : Text) : Nat → Position :=
  positionIn (lineStarts text) text

end Css
end ComponentPipeline
