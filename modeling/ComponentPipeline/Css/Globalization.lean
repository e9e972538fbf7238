import ComponentPipeline.Css.Parser
import ComponentPipeline.Css.Printer
import ComponentPipeline.Css.Retain
import ComponentPipeline.Css.SelectorList
import ComponentPipeline.Selector.Globalize

/-!
# Removing bare global markers from stylesheets

A selector with bare markers becomes its beginning and the neutralized texts
after each marker, joined by single spaces; how a text is neutralized is a
parameter.  A selector that is nothing but the marker, or of which nothing is
left, goes.  A rule without selectors left goes with its block.  A selector
without a marker stays as it is, and so does a rule that has only such
selectors.
-/

namespace ComponentPipeline
namespace Css

/-- A selector whose markers cannot be removed, and why. -/
structure MalformedSelector where
  /-- The selector. -/
  selector : Text
  /-- What is wrong with it. -/
  reason : Text
  deriving DecidableEq, Repr

/-- What becomes of a selector. -/
inductive SelectorFate
  /-- It has no marker and stays. -/
  | unmarked
  /-- Nothing of it is left. -/
  | dropped
  /-- It gives way to another selector. -/
  | replaced (selector : Text)
  deriving DecidableEq, Repr

/-- The texts of a marked selector joined by single spaces, without the empty
ones. -/
def joinSegments
    (neutralize : Text → Text)
    (beginning : Text)
    (rest : List Text) :
    Text :=
  let texts := Text.trim beginning :: rest.map fun segment => Text.trim (neutralize segment)
  List.intercalate [' '] (texts.filter fun text => !text.isEmpty)

/-- What becomes of a selector. -/
def selectorFate
    (neutralize : Text → Text)
    (selector : Text) :
    Except MalformedSelector SelectorFate :=
  match Selector.splitOnMarker selector with
  | .nested => .error ⟨selector, Selector.nestedMarkerReason⟩
  | .segments _ [] => .ok .unmarked
  | .segments beginning (segment :: rest) =>
      if selector = Selector.marker then .ok .dropped
      else
        let joined := joinSegments neutralize beginning (segment :: rest)
        .ok (if joined.isEmpty then .dropped else .replaced joined)

/-- What becomes of each selector of a list; the first malformed one fails. -/
def selectorFates (neutralize : Text → Text) :
    List Text → Except MalformedSelector (List (Text × SelectorFate))
  | [] => .ok []
  | selector :: rest => do
      let fate ← selectorFate neutralize selector
      let others ← selectorFates neutralize rest
      return (selector, fate) :: others

/-- The selectors that are left. -/
def survivors : List (Text × SelectorFate) → List Text
  | [] => []
  | (selector, .unmarked) :: rest => selector :: survivors rest
  | (_, .dropped) :: rest => survivors rest
  | (_, .replaced selector) :: rest => selector :: survivors rest

/-- What becomes of a rule. -/
def judgeRule
    (neutralize : Text → Text)
    (rule : Rule) :
    Except MalformedSelector Verdict := do
  let fates ← selectorFates neutralize rule.selectors
  if fates.all fun (_, fate) => fate == .unmarked then
    return .keep rule.selector
  else
    match survivors fates with
    | [] => return .drop
    | selectors => return .keep (relist rule.selector selectors)

/-- The decision about a rule, for a walk without a state. -/
def globalVisitor (neutralize : Text → Text) : Visitor MalformedSelector Unit :=
  fun rule state => (judgeRule neutralize rule, state)

/-- A stylesheet without bare markers. -/
def Stylesheet.globalize
    (neutralize : Text → Text)
    (sheet : Stylesheet) :
    Except MalformedSelector Stylesheet :=
  match sheet.retainRules (globalVisitor neutralize) () with
  | (_, some failure, _) => .error failure
  | (sheet, none, _) => .ok sheet

end Css
end ComponentPipeline
