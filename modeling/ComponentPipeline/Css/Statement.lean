import ComponentPipeline.Text.Basic

/-!
# The end of a statement

A statement runs up to the brace or semicolon that ends it.  Characters after
a backslash, in quoted strings and in comments do not end it, and neither do
an opening brace or a semicolon inside parentheses or brackets.  A closing
brace ends it at any depth.

The scan goes character by character.  A slash is remembered for one
character, as it may open a comment.
-/

namespace ComponentPipeline
namespace Css

/-- Why a text is no stylesheet. -/
inductive Reason
  | unclosedBlock
  | unexpectedBrace
  | unclosedComment
  | unclosedString
  /-- A statement of nothing but blanks that do not count as a gap. -/
  | blankStatement
  deriving DecidableEq, Repr

/-- The reason in words. -/
def Reason.message : Reason → Text
  | .unclosedBlock => "Unclosed block"
  | .unexpectedBrace => "Unexpected \x7d"
  | .unclosedComment => "Unclosed comment"
  | .unclosedString => "Unclosed string"
  | .blankStatement => "Blank statement"

/-- What surrounds the next character of a statement; strings and comments
remember the offset at which they started. -/
inductive Surrounding
  | plain
  | afterSlash (start : Nat)
  | afterBackslash
  | string (quote : Char) (start : Nat)
  | stringAfterBackslash (quote : Char) (start : Nat)
  | comment (start : Nat)
  | commentAfterStar (start : Nat)
  deriving DecidableEq, Repr

/-- The state of a scan before the next character. -/
structure StatementScan where
  /-- What surrounds the next character. -/
  surrounding : Surrounding
  /-- Number of open parentheses and brackets. -/
  depth : Nat
  deriving DecidableEq, Repr

namespace StatementScan

/-- The state at the start of a statement. -/
def initial : StatementScan := ⟨.plain, 0⟩

/-- Whether the next character is statement text itself. -/
def isPlain (scan : StatementScan) : Bool :=
  match scan.surrounding with
  | .plain => true
  | .afterSlash _ => true
  | _ => false

/-- Whether a character ends the statement. -/
def endsAt (scan : StatementScan) (char : Char) : Bool :=
  scan.isPlain &&
    (char == '}' || (scan.depth == 0 && (char == '{' || char == ';')))

/-- The state after a character of the statement text itself. -/
def plainStep (depth offset : Nat) (char : Char) : StatementScan :=
  if char = '\\' then ⟨.afterBackslash, depth⟩
  else if char = '"' ∨ char = '\'' then ⟨.string char offset, depth⟩
  else if char = '/' then ⟨.afterSlash offset, depth⟩
  else if char = '(' ∨ char = '[' then ⟨.plain, depth + 1⟩
  else if char = ')' ∨ char = ']' then ⟨.plain, depth - 1⟩
  else ⟨.plain, depth⟩

/-- The state after a character at an offset. -/
def step (scan : StatementScan) (offset : Nat) (char : Char) : StatementScan :=
  match scan.surrounding with
  | .plain => plainStep scan.depth offset char
  | .afterSlash start =>
      if char = '*' then ⟨.comment start, scan.depth⟩
      else plainStep scan.depth offset char
  | .afterBackslash => ⟨.plain, scan.depth⟩
  | .string quote start =>
      if char = '\\' then ⟨.stringAfterBackslash quote start, scan.depth⟩
      else if char = quote then ⟨.plain, scan.depth⟩
      else scan
  | .stringAfterBackslash quote start => ⟨.string quote start, scan.depth⟩
  | .comment start =>
      if char = '*' then ⟨.commentAfterStar start, scan.depth⟩ else scan
  | .commentAfterStar start =>
      if char = '/' then ⟨.plain, scan.depth⟩
      else if char = '*' then scan
      else ⟨.comment start, scan.depth⟩

/-- What is left open when the text ends, with its offset. -/
def leftOpen? (scan : StatementScan) : Option (Reason × Nat) :=
  match scan.surrounding with
  | .string _ start => some (.unclosedString, start)
  | .stringAfterBackslash _ start => some (.unclosedString, start)
  | .comment start => some (.unclosedComment, start)
  | .commentAfterStar start => some (.unclosedComment, start)
  | _ => none

end StatementScan

/-- The text of a statement up to its end and the text from there on, or what
is left open with its offset. -/
def scanStatement
    (scan : StatementScan)
    (offset : Nat) :
    Text → Except (Reason × Nat) (Text × Text)
  | [] =>
      match scan.leftOpen? with
      | some unclosed => .error unclosed
      | none => .ok ([], [])
  | char :: rest =>
      if scan.endsAt char then
        .ok ([], char :: rest)
      else
        match scanStatement (scan.step offset char) (offset + char.utf8Size) rest with
        | .ok (raw, tail) => .ok (char :: raw, tail)
        | .error unclosed => .error unclosed

/-- A scan loses nothing of the text. -/
theorem eq_append_of_scanStatement
    {scan : StatementScan}
    {offset : Nat}
    {text raw tail : Text}
    (scanned : scanStatement scan offset text = .ok (raw, tail)) :
    text = raw ++ tail := by
  induction text generalizing scan offset raw tail with
  | nil =>
      simp only [scanStatement] at scanned
      split at scanned
      · cases scanned
      · cases scanned
        rfl
  | cons char rest ih =>
      simp only [scanStatement] at scanned
      split at scanned
      · cases scanned
        rfl
      · split at scanned
        · rename_i scanned_rest
          cases scanned
          simp [ih scanned_rest]
        · cases scanned

end Css
end ComponentPipeline
