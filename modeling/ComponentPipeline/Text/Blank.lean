import ComponentPipeline.Text.Basic

/-!
# Blank characters

Two classes of blank characters are in use.  The wide one is the Unicode
property `White_Space`; trimming and selector separators go by it.  The narrow
one holds five ASCII characters, without the vertical tab; the gaps between
the statements of a stylesheet go by it.
-/

namespace ComponentPipeline
namespace Text

/-- The Unicode property `White_Space`. -/
def isBlank (char : Char) : Bool :=
  let code := char.toNat
  (0x0009 ≤ code && code ≤ 0x000D) || code == 0x0020 || code == 0x0085 ||
    code == 0x00A0 || code == 0x1680 || (0x2000 ≤ code && code ≤ 0x200A) ||
    code == 0x2028 || code == 0x2029 || code == 0x202F || code == 0x205F ||
    code == 0x3000

/-- Tab, line feed, form feed, carriage return and space. -/
def isAsciiBlank (char : Char) : Bool :=
  char == '\t' || char == '\n' || char == '\x0c' || char == '\r' || char == ' '

theorem isBlank_of_isAsciiBlank {char : Char}
    (narrow : isAsciiBlank char = true) : isBlank char = true := by
  simp only [isAsciiBlank, Bool.or_eq_true, beq_iff_eq] at narrow
  rcases narrow with (((rfl | rfl) | rfl) | rfl) | rfl <;> decide

/-- A text without the blanks at its start. -/
def trimStart (text : Text) : Text :=
  text.dropWhile isBlank

/-- A text without the blanks at its end. -/
def trimEnd : Text → Text
  | [] => []
  | char :: rest =>
      match trimEnd rest with
      | [] => if isBlank char then [] else [char]
      | kept => char :: kept

/-- A text without the blanks around it. -/
def trim (text : Text) : Text :=
  trimEnd (trimStart text)

/-- Whether a text has nothing but blanks. -/
def isBlankText (text : Text) : Bool :=
  text.all isBlank

end Text
end ComponentPipeline
