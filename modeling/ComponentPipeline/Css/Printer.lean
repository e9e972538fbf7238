import ComponentPipeline.Css.Tree
import ComponentPipeline.SourceMap.Basic

/-!
# Printing stylesheets

A tree is laid out as pieces of text, some of them marked with the location
that their first character had in the parsed text.  The printed text is the
pieces one after another.  The source map of the printed text has one mapping
for each marked piece, at the place where a cursor stands that has gone over
the pieces before.

The start of every node is marked.  Declarations and comments are copied from
the parsed text, so each of their further lines is marked as well.
-/

namespace ComponentPipeline
namespace Css

/-- A piece of printed text. -/
structure Piece where
  /-- Location in the parsed text, for a piece that is mapped. -/
  mark : Option Location
  /-- The text of the piece. -/
  text : Text
  deriving DecidableEq, Repr

namespace Piece

/-- A piece that is not mapped. -/
def plain (text : Text) : Piece := ⟨none, text⟩

/-- A piece that is mapped. -/
def marked (location : Location) (text : Text) : Piece := ⟨some location, text⟩

/-- The further lines of a copied text; the first of them stood on `line`. -/
def furtherLines (line : Nat) : List Text → List Piece
  | [] => []
  | text :: rest =>
      plain ['\n'] :: marked ⟨line, 0⟩ text :: furtherLines (line + 1) rest

/-- A text that was copied from the parsed text, line by line. -/
def copied (start : Location) (text : Text) : List Piece :=
  match Text.lines text with
  | [] => [marked start []]
  | first :: rest => marked start first :: furtherLines (start.line + 1) rest

/-- The text of pieces one after another. -/
def textOf (pieces : List Piece) : Text :=
  pieces.flatMap Piece.text

end Piece

mutual

/-- The pieces of a node. -/
def Node.pieces : Node → List Piece
  | .rule before selector between nodes after start =>
      .plain before :: .marked start.location selector :: .plain between ::
        .plain ['\x7b'] :: (piecesOf nodes ++ [.plain after, .plain ['\x7d']])
  | .atBlock before head between nodes after start =>
      .plain before :: .marked start.location head :: .plain between ::
        .plain ['\x7b'] :: (piecesOf nodes ++ [.plain after, .plain ['\x7d']])
  | .atStatement before head between start =>
      [.plain before, .marked start.location head, .plain between]
  | .declaration before text between start =>
      .plain before :: (Piece.copied start.location text ++ [.plain between])
  | .comment before text start =>
      .plain before :: Piece.copied start.location text

/-- The pieces of nodes one after another. -/
def piecesOf : List Node → List Piece
  | [] => []
  | node :: rest => node.pieces ++ piecesOf rest

end

/-! ## The cursor -/

/-- Moves a location past a text, line by line. -/
def moveCursor (cursor : Location) (text : Text) : Location :=
  match Text.lines text with
  | [] => cursor
  | first :: rest =>
      rest.foldl
        (fun cursor line => ⟨cursor.line + 1, Text.units line⟩)
        ⟨cursor.line, cursor.column + Text.units first⟩

/-- The mappings of pieces that are printed from a cursor on, into one
source. -/
def mappingsFrom (source : Nat) (cursor : Location) : List Piece → List Mapping
  | [] => []
  | piece :: rest =>
      let later := mappingsFrom source (moveCursor cursor piece.text) rest
      match piece.mark with
      | none => later
      | some location => ⟨cursor, some ⟨source, location, none⟩⟩ :: later

namespace Stylesheet

/-- The pieces of a stylesheet. -/
def pieces (sheet : Stylesheet) : List Piece :=
  piecesOf sheet.nodes ++ [.plain sheet.after]

/-- The text of a stylesheet. -/
def print (sheet : Stylesheet) : Text :=
  Piece.textOf sheet.pieces

/-- The source map of the printed text; `source` names the parsed text and
`content` is that text. -/
def sourceMap
    (sheet : Stylesheet)
    (source content projectRoot : Text) :
    SourceMap :=
  (SourceMap.ofSource projectRoot source content).addAll
    (mappingsFrom 0 Location.origin sheet.pieces)

end Stylesheet
end Css
end ComponentPipeline
