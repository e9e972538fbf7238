import ComponentPipeline.Text.Location

/-!
# Stylesheets as trees

A stylesheet is a list of nodes.  Only selectors are interpreted; every other
part of a node is the text that was written, blanks and semicolons included,
so that printing a parsed stylesheet gives the written text back.  Each node
knows where it started in the parsed text.
-/

namespace ComponentPipeline
namespace Css

/-- A place in the text of a stylesheet. -/
structure Position where
  /-- Line and column. -/
  location : Location
  /-- Byte offset. -/
  offset : Nat
  deriving DecidableEq, Repr, Inhabited

/-- A node of a stylesheet. -/
inductive Node
  /-- A rule: a selector and a block. -/
  | rule
      (before selector between : Text)
      (nodes : List Node)
      (after : Text)
      (start : Position)
  /-- An at-rule with a block; its head runs from `@` to the block. -/
  | atBlock
      (before head between : Text)
      (nodes : List Node)
      (after : Text)
      (start : Position)
  /-- An at-rule without a block; its terminator belongs to `between`. -/
  | atStatement (before head between : Text) (start : Position)
  /-- A declaration; its terminator belongs to `between`. -/
  | declaration (before text between : Text) (start : Position)
  /-- A comment with its delimiters. -/
  | comment (before text : Text) (start : Position)
  deriving Repr, Inhabited

namespace Node

/-- The blanks and stray semicolons before a node. -/
def before : Node → Text
  | .rule before .. => before
  | .atBlock before .. => before
  | .atStatement before .. => before
  | .declaration before .. => before
  | .comment before .. => before

/-- Where a node started in the parsed text. -/
def start : Node → Position
  | .rule _ _ _ _ _ start => start
  | .atBlock _ _ _ _ _ start => start
  | .atStatement _ _ _ start => start
  | .declaration _ _ _ start => start
  | .comment _ _ start => start

end Node

/-- A stylesheet. -/
structure Stylesheet where
  /-- The nodes at the top level. -/
  nodes : List Node
  /-- Blanks and stray semicolons after the last node. -/
  after : Text
  deriving Repr, Inhabited

/-- The parts of a rule. -/
structure Rule where
  /-- Blanks and stray semicolons before the selector. -/
  before : Text
  /-- The selector list as written. -/
  selector : Text
  /-- Blanks between the selector and the block. -/
  between : Text
  /-- The nodes of the block. -/
  nodes : List Node
  /-- Blanks and stray semicolons before the end of the block. -/
  after : Text
  /-- Where the selector started in the parsed text. -/
  start : Position
  deriving Repr, Inhabited

namespace Rule

/-- A rule with an empty block. -/
def ofSelector (selector : Text) : Rule :=
  ⟨[], selector, [' '], [], [], ⟨Location.origin, 0⟩⟩

end Rule
end Css
end ComponentPipeline
