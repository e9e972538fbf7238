import ComponentPipeline.Json.Basic

/-!
# Writing JSON

Values are written without blanks.  In a string the quote, the backslash and
control characters are escaped.
-/

namespace ComponentPipeline
namespace Json

/-- A hexadecimal digit. -/
def hexChar (digit : Nat) : Char :=
  if digit < 10 then Char.ofNat (0x30 + digit) else Char.ofNat (0x57 + digit)

/-- A character inside a string. -/
def charText (char : Char) : Text :=
  if char = '"' then ['\\', '"']
  else if char = '\\' then ['\\', '\\']
  else if char.toNat < 0x20 ∨ char.toNat = 0x7f then
    ['\\', 'u', '0', '0', hexChar (char.toNat / 16), hexChar (char.toNat % 16)]
  else [char]

/-- A string with its quotes. -/
def stringText (text : Text) : Text :=
  '"' :: (text.flatMap charText ++ ['"'])

mutual

/-- The text of a value. -/
def toText : Json → Text
  | .null => "null"
  | .bool true => "true"
  | .bool false => "false"
  | .number value => value.text
  | .string value => stringText value
  | .array items => '[' :: (itemsText items ++ [']'])
  | .object members => '{' :: (membersText members ++ ['}'])

/-- The items of an array, separated by commas. -/
def itemsText : List Json → Text
  | [] => []
  | [item] => item.toText
  | item :: rest => item.toText ++ ',' :: itemsText rest

/-- The members of an object, separated by commas. -/
def membersText : List (Text × Json) → Text
  | [] => []
  | [(key, value)] => stringText key ++ ':' :: value.toText
  | (key, value) :: rest =>
      stringText key ++ ':' :: (value.toText ++ ',' :: membersText rest)

end

end Json
end ComponentPipeline
