import ComponentPipeline.Json.Basic

/-!
# Reading JSON

One value, with blanks around it and nothing else.  A string has no raw
control characters, and its escapes name characters: a high surrogate is
followed by a low one.  A number has a value.  Arrays and objects are nested
only so deep.

A value that nobody asks for is passed over.  Then only its form matters:
escapes need not name characters, numbers may be too large, and nesting is not
limited.
-/

namespace ComponentPipeline
namespace Json

/-- The characters that may stand between tokens. -/
def isSpace (char : Char) : Bool :=
  char == ' ' || char == '\t' || char == '\n' || char == '\r'

/-- A text without the spaces at its start. -/
def skipSpaces (text : Text) : Text :=
  text.dropWhile isSpace

/-! ## Strings -/

/-- The value of a hexadecimal digit. -/
def hexDigit? (char : Char) : Option Nat :=
  let code := char.toNat
  if '0' ≤ char ∧ char ≤ '9' then some (code - 0x30)
  else if 'a' ≤ char ∧ char ≤ 'f' then some (code - 0x57)
  else if 'A' ≤ char ∧ char ≤ 'F' then some (code - 0x37)
  else none

/-- Four hexadecimal digits. -/
def readHex4 : Text → Option (Nat × Text)
  | a :: b :: c :: d :: rest => do
      let a ← hexDigit? a
      let b ← hexDigit? b
      let c ← hexDigit? c
      let d ← hexDigit? d
      return (((a * 16 + b) * 16 + c) * 16 + d, rest)
  | _ => none

/-- The character of an escape with a code, after its `\u`. -/
def readCode (text : Text) : Option (Char × Text) := do
  let (unit, rest) ← readHex4 text
  if 0xDC00 ≤ unit ∧ unit ≤ 0xDFFF then
    none
  else if 0xD800 ≤ unit ∧ unit ≤ 0xDBFF then
    let low ← Text.after? ['\\', 'u'] rest
    let (second, rest) ← readHex4 low
    if 0xDC00 ≤ second ∧ second ≤ 0xDFFF then
      return (Char.ofNat (0x10000 + (unit - 0xD800) * 0x400 + (second - 0xDC00)), rest)
    else
      none
  else
    return (Char.ofNat unit, rest)

/-- What strings and numbers stand for. -/
structure Meaning where
  /-- The character of an escape with a code, after its `\u`. -/
  code : Text → Option (Char × Text)
  /-- The value of a numeral. -/
  number : Numeral → Option Number

/-- The characters and values that are written. -/
def Meaning.exact : Meaning := ⟨readCode, Numeral.value?⟩

/-- Nothing in particular: every escape and every numeral of the right form
stands for the same. -/
def Meaning.formOnly : Meaning :=
  ⟨fun text => (readHex4 text).map fun (_, rest) => ('?', rest), fun _ => some (.integer 0)⟩

/-- The character of an escape, after its backslash. -/
def readEscape (meaning : Meaning) : Text → Option (Char × Text)
  | '"' :: rest => some ('"', rest)
  | '\\' :: rest => some ('\\', rest)
  | '/' :: rest => some ('/', rest)
  | 'b' :: rest => some ('\x08', rest)
  | 'f' :: rest => some ('\x0c', rest)
  | 'n' :: rest => some ('\n', rest)
  | 'r' :: rest => some ('\r', rest)
  | 't' :: rest => some ('\t', rest)
  | 'u' :: rest => meaning.code rest
  | _ => none

/-- The rest of a string after its opening quote; `fuel` bounds the number of
characters. -/
def readStringBody (meaning : Meaning) : (fuel : Nat) → Text → Option (Text × Text)
  | 0, _ => none
  | _ + 1, [] => none
  | fuel + 1, char :: rest =>
      if char = '"' then
        some ([], rest)
      else if char = '\\' then do
        let (escaped, rest) ← readEscape meaning rest
        let (body, rest) ← readStringBody meaning fuel rest
        return (escaped :: body, rest)
      else if char.toNat < 0x20 then
        none
      else do
        let (body, rest) ← readStringBody meaning fuel rest
        return (char :: body, rest)

/-- A string after its opening quote. -/
def readString (meaning : Meaning) (text : Text) : Option (Text × Text) :=
  readStringBody meaning (text.length + 1) text

/-! ## Numbers -/

/-- The integer digits of a number: a zero alone, or digits without a leading
zero. -/
def readIntegerDigits : Text → Option (Text × Text)
  | '0' :: rest =>
      match rest with
      | next :: _ => if next.isDigit then none else some (['0'], rest)
      | [] => some (['0'], rest)
  | text =>
      let digits := text.takeWhile Char.isDigit
      if digits.isEmpty then none else some (digits, text.dropWhile Char.isDigit)

/-- The digits after the point, if there is a point. -/
def readFraction : Text → Option (Option Text × Text)
  | '.' :: rest =>
      let digits := rest.takeWhile Char.isDigit
      if digits.isEmpty then none
      else some (some digits, rest.dropWhile Char.isDigit)
  | text => some (none, text)

/-- An exponent after its letter. -/
def readExponentBody (text : Text) : Option (Option Int × Text) :=
  let (negative, text) :=
    match text with
    | '-' :: rest => (true, rest)
    | '+' :: rest => (false, rest)
    | _ => (false, text)
  let digits := text.takeWhile Char.isDigit
  if digits.isEmpty then none
  else
    let value : Int := digitsValue digits
    some (some (if negative then -value else value), text.dropWhile Char.isDigit)

/-- The exponent, if there is one. -/
def readExponent : Text → Option (Option Int × Text)
  | 'e' :: rest => readExponentBody rest
  | 'E' :: rest => readExponentBody rest
  | text => some (none, text)

/-- A numeral after its sign. -/
def readNumeral (negative : Bool) (text : Text) : Option (Numeral × Text) := do
  let (whole, rest) ← readIntegerDigits text
  let (fraction, rest) ← readFraction rest
  let (exponent, rest) ← readExponent rest
  return (⟨negative, whole, fraction, exponent⟩, rest)

/-- A number after its sign. -/
def readNumber (meaning : Meaning) (negative : Bool) (text : Text) :
    Option (Json × Text) := do
  let (numeral, rest) ← readNumeral negative text
  let value ← meaning.number numeral
  return (.number value, rest)

/-! ## Arrays, objects and values -/

/-- The items of an array after its first item began, up to the closing
bracket. -/
def readItems (read : Text → Option (Json × Text)) :
    (fuel : Nat) → Text → Option (List Json × Text)
  | 0, _ => none
  | fuel + 1, text => do
      let (item, rest) ← read text
      match skipSpaces rest with
      | ']' :: rest => return ([item], rest)
      | ',' :: rest =>
          let (items, rest) ← readItems read fuel rest
          return (item :: items, rest)
      | _ => none

/-- The members of an object from a key on, up to the closing brace; how a
value is read may depend on its key. -/
def readMembers (meaning : Meaning) (read : Text → Text → Option (Json × Text)) :
    (fuel : Nat) → Text → Option (List (Text × Json) × Text)
  | 0, _ => none
  | fuel + 1, text => do
      let keyed ← Text.after? ['"'] (skipSpaces text)
      let (key, rest) ← readString meaning keyed
      let rest ← Text.after? [':'] (skipSpaces rest)
      let (value, rest) ← read key rest
      match skipSpaces rest with
      | '}' :: rest => return ([(key, value)], rest)
      | ',' :: rest =>
          let (members, rest) ← readMembers meaning read fuel rest
          return ((key, value) :: members, rest)
      | _ => none

/-- An array after its opening bracket. -/
def readArray (read : Text → Option (Json × Text)) (text : Text) : Option (Json × Text) :=
  match skipSpaces text with
  | ']' :: rest => some (.array [], rest)
  | body =>
      (readItems read (body.length + 1) body).map fun (items, rest) => (.array items, rest)

/-- An object after its opening brace. -/
def readObject
    (meaning : Meaning)
    (read : Text → Text → Option (Json × Text))
    (text : Text) :
    Option (Json × Text) :=
  match skipSpaces text with
  | '}' :: rest => some (.object [], rest)
  | body =>
      (readMembers meaning read (body.length + 1) body).map
        fun (members, rest) => (.object members, rest)

/-- A value; `depth` bounds the nesting of arrays and objects. -/
def readValue (meaning : Meaning) : (depth : Nat) → Text → Option (Json × Text)
  | depth, text =>
      match skipSpaces text with
      | [] => none
      | first :: rest =>
          if first = '"' then
            (readString meaning rest).map fun (value, rest) => (.string value, rest)
          else if first = '-' then
            readNumber meaning true rest
          else if first.isDigit then
            readNumber meaning false (first :: rest)
          else if first = 't' then
            (Text.after? "rue" rest).map fun rest => (.bool true, rest)
          else if first = 'f' then
            (Text.after? "alse" rest).map fun rest => (.bool false, rest)
          else if first = 'n' then
            (Text.after? "ull" rest).map fun rest => (.null, rest)
          else if first = '[' then
            match depth with
            | 0 => none
            | depth + 1 => readArray (readValue meaning depth) rest
          else if first = '\x7b' then
            match depth with
            | 0 => none
            | depth + 1 => readObject meaning (fun _ => readValue meaning depth) rest
          else
            none

/-- A value that is passed over. -/
def passValue (text : Text) : Option (Json × Text) :=
  readValue .formOnly (text.length + 1) text

/-- A value of which, if it is an object, only the members with known keys are
asked for. -/
def readKnown (keys : List Text) (text : Text) : Option (Json × Text) :=
  match Text.after? ['\x7b'] (skipSpaces text) with
  | none => readValue .exact nestingLimit text
  | some rest =>
      readObject .exact
        (fun key text =>
          if keys.contains key then readValue .exact (nestingLimit - 1) text
          else passValue text)
        rest

/-! ## Whole texts -/

/-- What was read of a text, if nothing but spaces is left. -/
def atEnd : Option (Json × Text) → Option Json
  | some (value, rest) => if (skipSpaces rest).isEmpty then some value else none
  | none => none

/-- The value that a whole text writes. -/
def ofText? (text : Text) : Option Json :=
  atEnd (readValue .exact nestingLimit text)

/-- The value that a whole text writes; of an object only the members with
known keys are asked for. -/
def ofTextKnowing? (keys : List Text) (text : Text) : Option Json :=
  atEnd (readKnown keys text)

end Json
end ComponentPipeline
