import ComponentPipeline.Css.Tree
import ComponentPipeline.Text.Blank

/-!
# Selector lists

The selectors of a list are separated by commas that stand outside quoted
strings and parentheses and are not escaped.  Setting the selectors of a rule
joins them by the separator that the list had: its first such comma with the
blanks after it.
-/

namespace ComponentPipeline
namespace Css

/-- The state of a scan of a selector list before the next character. -/
structure ListScan where
  /-- Number of open parentheses. -/
  depth : Nat
  /-- The quote of the string that is open. -/
  quote : Option Char
  /-- Whether the next character is escaped. -/
  escaped : Bool
  deriving DecidableEq, Repr

namespace ListScan

/-- The state at the start of a list. -/
def initial : ListScan := ⟨0, none, false⟩

/-- Whether a character separates two selectors. -/
def separatesAt (scan : ListScan) (char : Char) : Bool :=
  !scan.escaped && scan.quote.isNone && scan.depth == 0 && char == ','

/-- The state after a character. -/
def step (scan : ListScan) (char : Char) : ListScan :=
  if scan.escaped then { scan with escaped := false }
  else if char = '\\' then { scan with escaped := true }
  else
    match scan.quote with
    | some quote => if char = quote then { scan with quote := none } else scan
    | none =>
        if char = '"' ∨ char = '\'' then { scan with quote := some char }
        else if char = '(' then { scan with depth := scan.depth + 1 }
        else if char = ')' then { scan with depth := scan.depth - 1 }
        else scan

end ListScan

/-- The pieces of a list between its separators. -/
def listPieces (scan : ListScan) : Text → List Text
  | [] => [[]]
  | char :: rest =>
      if scan.separatesAt char then
        [] :: listPieces scan rest
      else
        match listPieces (scan.step char) rest with
        | [] => [[char]]
        | piece :: pieces => (char :: piece) :: pieces

/-- The selectors of a list, without the blanks around them.  An empty piece
is no selector, unless it is the last one. -/
def selectorsOf (list : Text) : List Text :=
  let pieces := listPieces .initial list
  ((pieces.dropLast.filter fun piece => !piece.isEmpty) ++ pieces.getLast?.toList).map
    Text.trim

/-- The first separator of a list with the blanks after it. -/
def separatorFrom? (scan : ListScan) : Text → Option Text
  | [] => none
  | char :: rest =>
      if scan.separatesAt char then
        some (char :: rest.takeWhile Text.isBlank)
      else
        separatorFrom? (scan.step char) rest

/-- The first separator of a list with the blanks after it. -/
def separator? (list : Text) : Option Text :=
  separatorFrom? .initial list

/-- The list of the given selectors, with the separator of an earlier list. -/
def relist (earlier : Text) (selectors : List Text) : Text :=
  List.intercalate ((separator? earlier).getD [',', ' ']) selectors

namespace Rule

/-- The selectors of a rule. -/
def selectors (rule : Rule) : List Text :=
  selectorsOf rule.selector

/-- A rule with other selectors. -/
def setSelectors (rule : Rule) (selectors : List Text) : Rule :=
  { rule with selector := relist rule.selector selectors }

end Rule
end Css
end ComponentPipeline
