/-!
# Texts

A text is its list of characters.  Two measures are laid over it: the size in
UTF-8 bytes, in which offsets into a document are counted, and the width in
UTF-16 units, in which columns are counted.
-/

namespace ComponentPipeline

/-- A text, character by character. -/
abbrev Text := List Char

instance : Coe String Text := ⟨String.toList⟩

namespace Text

/-! ## Measures -/

/-- Number of UTF-8 bytes of a text. -/
def size : Text → Nat
  | [] => 0
  | char :: rest => char.utf8Size + size rest

/-- Number of UTF-16 units of one character. -/
def charUnits (char : Char) : Nat :=
  if char.toNat < 0x10000 then 1 else 2

/-- Number of UTF-16 units of a text. -/
def units : Text → Nat
  | [] => 0
  | char :: rest => charUnits char + units rest

@[simp] theorem size_nil : size [] = 0 := rfl

@[simp] theorem size_cons (char : Char) (rest : Text) :
    size (char :: rest) = char.utf8Size + size rest := rfl

@[simp] theorem size_append (first second : Text) :
    size (first ++ second) = size first + size second := by
  induction first with
  | nil => simp
  | cons char rest ih => simp [ih, Nat.add_assoc]

@[simp] theorem units_nil : units [] = 0 := rfl

@[simp] theorem units_cons (char : Char) (rest : Text) :
    units (char :: rest) = charUnits char + units rest := rfl

@[simp] theorem units_append (first second : Text) :
    units (first ++ second) = units first + units second := by
  induction first with
  | nil => simp
  | cons char rest ih => simp [ih, Nat.add_assoc]

/-! ## Cutting at byte offsets -/

/-- The characters that start before a byte offset. -/
def takeBytes : Nat → Text → Text
  | _, [] => []
  | 0, _ :: _ => []
  | offset + 1, char :: rest =>
      char :: takeBytes (offset + 1 - char.utf8Size) rest

/-- The characters that start at or after a byte offset. -/
def dropBytes : Nat → Text → Text
  | _, [] => []
  | 0, char :: rest => char :: rest
  | offset + 1, char :: rest => dropBytes (offset + 1 - char.utf8Size) rest

/-- The text between two byte offsets. -/
def slice (start stop : Nat) (text : Text) : Text :=
  takeBytes (stop - start) (dropBytes start text)

@[simp] theorem takeBytes_append_dropBytes (offset : Nat) (text : Text) :
    takeBytes offset text ++ dropBytes offset text = text := by
  induction text generalizing offset with
  | nil => cases offset <;> rfl
  | cons char rest ih =>
      cases offset with
      | zero => rfl
      | succ offset => simp [takeBytes, dropBytes, ih]

/-! ## Searching -/

/-- The text after a leading pattern, if the text starts with it. -/
def after? : (pattern : Text) → Text → Option Text
  | [], text => some text
  | _ :: _, [] => none
  | expected :: pattern, char :: rest =>
      if char = expected then after? pattern rest else none

theorem after?_eq_some_iff {pattern text rest : Text} :
    after? pattern text = some rest ↔ text = pattern ++ rest := by
  induction pattern generalizing text with
  | nil => simp [after?]
  | cons expected pattern ih =>
      cases text with
      | nil => simp [after?]
      | cons char tail =>
          by_cases same : char = expected
          · simp [after?, same, ih]
          · simp [after?, same]

/-- Whether a text starts with a pattern. -/
def startsWith (pattern text : Text) : Bool :=
  (after? pattern text).isSome

/-- The text before the first occurrence of a pattern and the text after it. -/
def cutAt? (pattern : Text) : Text → Option (Text × Text)
  | [] => (after? pattern []).map fun rest => ([], rest)
  | char :: rest =>
      match after? pattern (char :: rest) with
      | some tail => some ([], tail)
      | none => (cutAt? pattern rest).map fun (head, tail) => (char :: head, tail)

theorem eq_of_cutAt?_eq_some {pattern text head tail : Text}
    (found : cutAt? pattern text = some (head, tail)) :
    text = head ++ pattern ++ tail := by
  induction text generalizing head tail with
  | nil =>
      simp only [cutAt?, Option.map_eq_some_iff] at found
      obtain ⟨rest, at_start, pair⟩ := found
      cases pair
      simpa using after?_eq_some_iff.mp at_start
  | cons char rest ih =>
      simp only [cutAt?] at found
      split at found
      · rename_i tail' at_start
        cases found
        simpa using after?_eq_some_iff.mp at_start
      · simp only [Option.map_eq_some_iff] at found
        obtain ⟨⟨head', tail'⟩, found', pair⟩ := found
        cases pair
        simpa using ih found'

/-- Whether a pattern occurs anywhere in a text. -/
def contains (pattern text : Text) : Bool :=
  (cutAt? pattern text).isSome

/-! ## Lines -/

/-- The lines of a text: the pieces between line feeds, at least one. -/
def lines (text : Text) : List Text :=
  text.splitOn '\n'

/-- Puts lines together again, a line feed between any two. -/
def ofLines (lines : List Text) : Text :=
  List.intercalate ['\n'] lines

/-- Removes one carriage return from the end of a line. -/
def withoutReturn (line : Text) : Text :=
  match line.reverse with
  | '\r' :: rest => rest.reverse
  | _ => line

/-- The lines of a text as a file reader counts them: a line feed ends a line,
together with a carriage return before it, and no line starts after the last
line feed. -/
def fileLines (text : Text) : List Text :=
  let pieces := lines text
  let ended := pieces.dropLast.map withoutReturn
  match pieces.getLast? with
  | some [] => ended
  | some last => ended ++ [last]
  | none => ended

/-- Decimal digits of a number. -/
def ofNat (number : Nat) : Text :=
  Nat.toDigits 10 number

end Text
end ComponentPipeline
