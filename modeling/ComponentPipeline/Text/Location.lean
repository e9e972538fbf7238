import ComponentPipeline.Text.Basic

/-!
# Locations in a text

A location is a line and a column, both from zero; columns count UTF-16 units.
Reading a text moves a location past it, character by character.  A location
relative to a starting point is put in place by `offsetBy`: lines add up, and
the column of the starting point counts only on its own line.
-/

namespace ComponentPipeline

/-- A line and a column, counted from zero. -/
structure Location where
  /-- Number of line feeds before the place. -/
  line : Nat
  /-- Number of UTF-16 units before the place on its line. -/
  column : Nat
  deriving DecidableEq, Repr, Inhabited

namespace Location

/-- The start of a text. -/
def origin : Location := ⟨0, 0⟩

/-- The location after one more character. -/
def step (location : Location) (char : Char) : Location :=
  if char = '\n' then
    ⟨location.line + 1, 0⟩
  else
    ⟨location.line, location.column + Text.charUnits char⟩

/-- The location after a text. -/
def advance (location : Location) (text : Text) : Location :=
  text.foldl step location

@[simp] theorem advance_nil (location : Location) :
    location.advance [] = location := rfl

@[simp] theorem advance_cons
    (location : Location)
    (char : Char)
    (rest : Text) :
    location.advance (char :: rest) = (location.step char).advance rest := rfl

@[simp] theorem advance_append
    (location : Location)
    (first second : Text) :
    location.advance (first ++ second) =
      (location.advance first).advance second := by
  simp [advance]

/-- The location of a byte offset in a text; an offset past the end counts as
the end. -/
def ofOffset (text : Text) (offset : Nat) : Location :=
  origin.advance (Text.takeBytes offset text)

/-- A location relative to `start`, put in place. -/
def offsetBy (start relative : Location) : Location :=
  if relative.line = 0 then
    ⟨start.line, start.column + relative.column⟩
  else
    ⟨start.line + relative.line, relative.column⟩

@[simp] theorem offsetBy_origin (start : Location) :
    start.offsetBy origin = start := rfl

/-- Moving a relative location and putting it in place can be exchanged. -/
theorem offsetBy_step (start relative : Location) (char : Char) :
    start.offsetBy (relative.step char) = (start.offsetBy relative).step char := by
  by_cases feed : char = '\n' <;> by_cases first : relative.line = 0 <;>
    simp [offsetBy, step, feed, first, Nat.add_assoc]

theorem offsetBy_advance (start relative : Location) (text : Text) :
    start.offsetBy (relative.advance text) =
      (start.offsetBy relative).advance text := by
  induction text generalizing relative with
  | nil => rfl
  | cons char rest ih => simp [ih, offsetBy_step]

end Location
end ComponentPipeline
