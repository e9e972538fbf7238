import ComponentPipeline.Proofs.Text.Cutting
import Mathlib.Data.List.DropRight

/-!
# What stands at a location

A location belongs to at most one place of a text, because every character
moves it on.  So a text has at most one character at a location.
-/

namespace ComponentPipeline

namespace Text

/-- The character at a location in a text that starts `here`. -/
def charFrom? (here location : Location) : Text → Option Char
  | [] => none
  | char :: rest =>
      if here = location then some char
      else charFrom? (here.step char) location rest

/-- The character at a location of a text; none at its end and outside it. -/
def charAt? (text : Text) (location : Location) : Option Char :=
  charFrom? Location.origin location text

theorem charUnits_pos (char : Char) : 0 < charUnits char := by
  unfold charUnits
  split <;> omega

end Text

namespace Location

/-- Reading on from a location puts what was read in place. -/
theorem offsetBy_advance_origin (start : Location) (text : Text) :
    start.offsetBy (origin.advance text) = start.advance text := by
  rw [offsetBy_advance, offsetBy_origin]

/-- The location of the end of a text: there are as many lines before it as line
feeds, and as many UTF-16 units on its line as behind the last line feed. -/
def endOf (text : Text) : Location :=
  ⟨text.count '\n', Text.units (text.rtakeWhile (· != '\n'))⟩

/-- Reading a text from its start leads to its end. -/
theorem advance_origin (text : Text) : origin.advance text = endOf text := by
  induction text using List.reverseRecOn with
  | nil => rfl
  | append_singleton before last ih =>
      rw [advance_append, ih, advance_cons, advance_nil, endOf, endOf, List.count_append,
        List.rtakeWhile_concat]
      by_cases feed : last = '\n' <;> simp [step, feed]

/-- A location behind another text is put in place behind its end. -/
theorem ofOffset_append_add (added document : Text) (offset : Nat) :
    ofOffset (added ++ document) (Text.size added + offset) =
      (endOf added).offsetBy (ofOffset document offset) := by
  rw [ofOffset, ofOffset, Text.takeBytes_add_append, advance_append, advance_origin added,
    offsetBy_advance_origin]

/-- Reading a text leads to a later line, or on by the units of the text. -/
theorem line_lt_or_column_eq (location : Location) (text : Text) :
    location.line < (location.advance text).line ∨
      (location.advance text).line = location.line ∧
        (location.advance text).column = location.column + Text.units text := by
  induction text generalizing location with
  | nil => exact .inr ⟨rfl, rfl⟩
  | cons char rest ih =>
      rw [advance_cons, Text.units_cons]
      by_cases feed : char = '\n'
      · have start : location.step char = ⟨location.line + 1, 0⟩ := if_pos feed
        have further := ih (location.step char)
        rw [start] at further ⊢
        simp only at further
        exact .inl (by omega)
      · have start : location.step char =
            ⟨location.line, location.column + Text.charUnits char⟩ := if_neg feed
        have further := ih (location.step char)
        rw [start] at further ⊢
        simp only at further
        omega

/-- A character leads away from every location before it. -/
theorem ne_advance_cons (location : Location) (char : Char) (rest : Text) :
    location ≠ location.advance (char :: rest) := by
  intro same
  have further := line_lt_or_column_eq location (char :: rest)
  rw [← same, Text.units_cons] at further
  have positive := Text.charUnits_pos char
  omega

end Location

namespace Text

theorem charFrom?_advance (here : Location) (before : Text) (char : Char) (rest : Text) :
    charFrom? here (here.advance before) (before ++ char :: rest) = some char := by
  induction before generalizing here with
  | nil => exact if_pos rfl
  | cons first before ih =>
      rw [List.cons_append, charFrom?, if_neg (here.ne_advance_cons first before)]
      exact ih (here.step first)

/-- At a location, a text goes on with `rest`. -/
def GoesOn (text : Text) (location : Location) (rest : Text) : Prop :=
  ∃ before, text = before ++ rest ∧ location = Location.origin.advance before

namespace GoesOn

variable {text rest : Text} {location : Location}

theorem charAt?_eq
    {char : Char}
    (goesOn : text.GoesOn location (char :: rest)) :
    text.charAt? location = some char := by
  obtain ⟨before, rfl, rfl⟩ := goesOn
  exact charFrom?_advance Location.origin before char rest

theorem start (text : Text) : text.GoesOn Location.origin text :=
  ⟨[], rfl, rfl⟩

theorem forward
    {skipped : Text}
    (goesOn : text.GoesOn location (skipped ++ rest)) :
    text.GoesOn (location.advance skipped) rest := by
  obtain ⟨before, rfl, rfl⟩ := goesOn
  exact ⟨before ++ skipped, (List.append_assoc _ _ _).symm,
    (Location.advance_append _ _ _).symm⟩

theorem append_right
    (goesOn : text.GoesOn location rest)
    (after : Text) :
    (text ++ after).GoesOn location (rest ++ after) := by
  obtain ⟨before, rfl, rfl⟩ := goesOn
  exact ⟨before, List.append_assoc _ _ _, rfl⟩

theorem append_left
    (goesOn : text.GoesOn location rest)
    (outer : Text) :
    (outer ++ text).GoesOn ((Location.origin.advance outer).offsetBy location) rest := by
  obtain ⟨before, rfl, rfl⟩ := goesOn
  refine ⟨outer ++ before, (List.append_assoc _ _ _).symm, ?_⟩
  rw [Location.offsetBy_advance_origin, Location.advance_append]

theorem within
    (goesOn : text.GoesOn location rest)
    (outer after : Text) :
    (outer ++ text ++ after).GoesOn ((Location.origin.advance outer).offsetBy location)
      (rest ++ after) :=
  (goesOn.append_left outer).append_right after

end GoesOn
end Text

/-- Two texts have the same character at the given locations. -/
def SameCharacter (first second : Text) (inFirst inSecond : Location) : Prop :=
  ∃ char, first.charAt? inFirst = some char ∧ second.charAt? inSecond = some char

theorem sameCharacter_of_goesOn
    {first second rest restToo : Text}
    {inFirst inSecond : Location}
    {char : Char}
    (goesOn : first.GoesOn inFirst (char :: rest))
    (goesOnToo : second.GoesOn inSecond (char :: restToo)) :
    SameCharacter first second inFirst inSecond :=
  ⟨char, goesOn.charAt?_eq, goesOnToo.charAt?_eq⟩

end ComponentPipeline
