import ComponentPipeline.Block.Basic
import ComponentPipeline.Text.Blank

/-!
# Attributes of an opening tag

An attribute is a name, perhaps followed by an equals sign and a value, with
blanks allowed around the sign.  A value stands in quotes of either kind or is
a run of characters without blanks, quotes and a few others.  A name without a
value is a flag.  Characters that cannot start a name are passed over.
-/

namespace ComponentPipeline

/-- The characters of a name. -/
def isNameChar (char : Char) : Bool :=
  !(Text.isBlank char || char == '=' || char == '/' || char == '>' ||
    char == '"' || char == '\'')

/-- The characters of a value without quotes. -/
def isBareValueChar (char : Char) : Bool :=
  !(Text.isBlank char || char == '"' || char == '\'' || char == '=' ||
    char == '<' || char == '>' || char == '\x60')

/-- A quoted value after its opening quote and the text after its closing
quote. -/
def cutQuoted? (quote : Char) : Text → Option (Text × Text)
  | [] => none
  | char :: rest =>
      if char = quote then some ([], rest)
      else (cutQuoted? quote rest).map fun (value, tail) => (char :: value, tail)

/-- A value at the start of a text and the text after it. -/
def cutValue? : Text → Option (Text × Text)
  | [] => none
  | char :: rest =>
      if char = '"' ∨ char = '\'' then cutQuoted? char rest
      else if isBareValueChar char then
        some ((char :: rest).takeWhile isBareValueChar,
          (char :: rest).dropWhile isBareValueChar)
      else none

/-- The value after a name, with its equals sign, and the text after it. -/
def cutAssignment? (text : Text) : Option (Text × Text) :=
  match Text.trimStart text with
  | '=' :: rest => cutValue? (Text.trimStart rest)
  | _ => none

theorem length_trimStart_le (text : Text) :
    (Text.trimStart text).length ≤ text.length :=
  (List.dropWhile_suffix Text.isBlank).length_le

theorem length_le_of_cutQuoted?
    {quote : Char}
    {text value tail : Text}
    (found : cutQuoted? quote text = some (value, tail)) :
    tail.length ≤ text.length := by
  induction text generalizing value with
  | nil => simp [cutQuoted?] at found
  | cons char rest ih =>
      simp only [cutQuoted?] at found
      split at found
      · cases found
        simp
      · simp only [Option.map_eq_some_iff] at found
        obtain ⟨⟨value', tail'⟩, found', pair⟩ := found
        simp only [Prod.mk.injEq] at pair
        obtain ⟨rfl, rfl⟩ := pair
        have shorter := ih found'
        simp only [List.length_cons]
        omega

theorem length_le_of_cutValue?
    {text value tail : Text}
    (found : cutValue? text = some (value, tail)) :
    tail.length ≤ text.length := by
  cases text with
  | nil => simp [cutValue?] at found
  | cons char rest =>
      simp only [cutValue?] at found
      split at found
      · have shorter := length_le_of_cutQuoted? found
        simp only [List.length_cons]
        omega
      · split at found
        · cases found
          exact (List.dropWhile_suffix isBareValueChar).length_le
        · cases found

theorem length_le_of_cutAssignment?
    {text value tail : Text}
    (found : cutAssignment? text = some (value, tail)) :
    tail.length ≤ text.length := by
  simp only [cutAssignment?] at found
  split at found
  · rename_i rest trimmed
    have first := length_trimStart_le text
    have second := length_trimStart_le rest
    have third := length_le_of_cutValue? found
    rw [trimmed] at first
    simp only [List.length_cons] at first
    omega
  · cases found

/-- The attributes of a text as written, one after another. -/
def writtenAttributes (text : Text) : List (Text × AttributeValue) :=
  match text with
  | [] => []
  | char :: rest =>
      if isNameChar char then
        let name := char :: rest.takeWhile isNameChar
        match _found : cutAssignment? (rest.dropWhile isNameChar) with
        | some (value, tail) => (name, .text value) :: writtenAttributes tail
        | none => (name, .flag true) :: writtenAttributes (rest.dropWhile isNameChar)
      else
        writtenAttributes rest
termination_by text.length
decreasing_by
  · have shorter := length_le_of_cutAssignment? _found
    have bound := (List.dropWhile_suffix isNameChar (l := rest)).length_le
    simp only [List.length_cons]
    omega
  · have bound := (List.dropWhile_suffix isNameChar (l := rest)).length_le
    simp only [List.length_cons]
    omega
  · simp

/-- The attributes of a text; a repeated name keeps its first place and takes
its last value. -/
def parseAttributes (text : Text) : Attributes :=
  Table.putAll (writtenAttributes text) []

end ComponentPipeline
