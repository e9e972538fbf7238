import ComponentPipeline.Text.Alphanumeric
import ComponentPipeline.Text.Basic

/-!
# The global marker

The bare marker `:global` in a selector says that what follows it is not
scoped.  It is bare if neither a parenthesis nor more of an identifier follows
and no colon stands before it.  Markers in quoted strings and behind a
backslash do not count.  A marker inside parentheses or brackets cannot be
split on.
-/

namespace ComponentPipeline
namespace Selector

/-- The marker. -/
def marker : Text := [':', 'g', 'l', 'o', 'b', 'a', 'l']

/-- Whether a character after `:global` makes it something else than the bare
marker. -/
def continuesMarker (char : Char) : Bool :=
  char == '(' || char == '-' || char == '_' || char == '\\' || Text.isAlphanumeric char

/-- The text after a bare marker at the start of a text. -/
def afterMarker? (text : Text) : Option Text :=
  match Text.after? marker text with
  | some [] => some []
  | some (char :: rest) => if continuesMarker char then none else some (char :: rest)
  | none => none

/-- The state of a scan for markers before the next character. -/
structure MarkerScan where
  /-- Number of open parentheses and brackets. -/
  depth : Nat
  /-- The quote of the string that is open. -/
  quote : Option Char
  /-- Whether the next character is escaped. -/
  escaped : Bool
  /-- Whether a colon stands before the next character. -/
  afterColon : Bool
  deriving DecidableEq, Repr

namespace MarkerScan

/-- The state at the start of a selector. -/
def initial : MarkerScan := ⟨0, none, false, false⟩

/-- Whether a marker may start at the next character. -/
def mayMark (scan : MarkerScan) : Bool :=
  !scan.escaped && scan.quote.isNone && !scan.afterColon

/-- The state after a character that does not start a marker. -/
def step (scan : MarkerScan) (char : Char) : MarkerScan :=
  let scan := { scan with afterColon := char == ':' }
  if scan.escaped then { scan with escaped := false }
  else if char = '\\' then { scan with escaped := true }
  else
    match scan.quote with
    | some quote => if char = quote then { scan with quote := none } else scan
    | none =>
        if char = '"' ∨ char = '\'' then { scan with quote := some char }
        else if char = '(' ∨ char = '[' then { scan with depth := scan.depth + 1 }
        else if char = ')' ∨ char = ']' then { scan with depth := scan.depth - 1 }
        else scan

/-- The state after a marker. -/
def stepMarker (scan : MarkerScan) : MarkerScan :=
  { scan with afterColon := false }

end MarkerScan

/-- What is wrong with a marker inside parentheses or brackets. -/
def nestedMarkerReason : Text :=
  "`:global` cannot be used inside parentheses or brackets, use `:global(...)` instead"

/-- What a scan for markers finds. -/
inductive Marked
  /-- A marker inside parentheses or brackets. -/
  | nested
  /-- The text before the first marker and the texts after each marker. -/
  | segments (beginning : Text) (rest : List Text)
  deriving DecidableEq, Repr

namespace Marked

/-- A character put before everything. -/
def consChar (char : Char) : Marked → Marked
  | .nested => .nested
  | .segments beginning rest => .segments (char :: beginning) rest

/-- A marker put before everything. -/
def consMarker : Marked → Marked
  | .nested => .nested
  | .segments beginning rest => .segments [] (beginning :: rest)

end Marked

theorem length_lt_of_afterMarker?
    {text rest : Text}
    (found : afterMarker? text = some rest) :
    rest.length < text.length := by
  simp only [afterMarker?] at found
  split at found
  · rename_i marked
    cases found
    have parts := Text.after?_eq_some_iff.mp marked
    subst parts
    simp [marker]
  · rename_i char tail marked
    split at found
    · cases found
    · cases found
      have parts := Text.after?_eq_some_iff.mp marked
      subst parts
      simp [marker]
  · cases found

/-- The marker that starts at the next character, if one may. -/
def MarkerScan.markerAt? (scan : MarkerScan) (text : Text) : Option Text :=
  if scan.mayMark then afterMarker? text else none

theorem MarkerScan.length_lt_of_markerAt?
    {scan : MarkerScan}
    {text rest : Text}
    (found : scan.markerAt? text = some rest) :
    rest.length < text.length := by
  simp only [markerAt?] at found
  split at found
  · exact length_lt_of_afterMarker? found
  · cases found

/-- Splits a text on its markers, from a state on. -/
def splitFrom (scan : MarkerScan) (text : Text) : Marked :=
  match text with
  | [] => .segments [] []
  | char :: rest =>
      match _found : scan.markerAt? (char :: rest) with
      | some tail =>
          if 0 < scan.depth then .nested
          else (splitFrom scan.stepMarker tail).consMarker
      | none => (splitFrom (scan.step char) rest).consChar char
termination_by text.length
decreasing_by
  · exact MarkerScan.length_lt_of_markerAt? _found
  · simp

/-- Splits a selector on its markers. -/
def splitOnMarker (selector : Text) : Marked :=
  splitFrom .initial selector

end Selector
end ComponentPipeline
