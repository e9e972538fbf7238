import ComponentPipeline.Double.Shortest
import ComponentPipeline.Text.Basic

/-!
# Numbers in JSON

A number is an integer if it is written without a fraction and an exponent and
fits into 64 bits, signed or unsigned; every other number is a double.

The value of a numeral is found from its first digits.  Digits are taken into
a significand while it fits into 64 bits, and the digits after that count only
as places.  A numeral whose double would be too large has no value.

A double is written with the fewest digits that identify it, positionally with
at least one digit after the point while that takes few zeros, and otherwise
with a signed exponent.
-/

namespace ComponentPipeline
namespace Json

/-- A number. -/
inductive Number
  /-- An integer that fits into 64 bits. -/
  | integer (value : Int)
  /-- A double by its sign and size. -/
  | double (negative : Bool) (magnitude : Double)
  deriving DecidableEq, Repr

/-- A number as written. -/
structure Numeral where
  /-- Whether a minus sign stands before the digits. -/
  negative : Bool
  /-- The digits before the point. -/
  whole : Text
  /-- The digits after the point, if there is a point. -/
  fraction : Option Text
  /-- The power of ten, if there is one. -/
  exponent : Option Int
  deriving DecidableEq, Repr

/-- The number that decimal digits stand for. -/
def digitsValue (digits : Text) : Nat :=
  digits.foldl (fun value digit => value * 10 + (digit.toNat - 0x30)) 0

/-- A significand with digits put after it while it fits into 64 bits, and the
number of digits that are left over. -/
def takeDigits (significand : Nat) : Text → Nat × Nat
  | [] => (significand, 0)
  | digit :: rest =>
      let longer := significand * 10 + (digit.toNat - 0x30)
      if longer < Nat.pow 2 64 then takeDigits longer rest else (significand, rest.length + 1)

namespace Number

/-- Whether a number is zero. -/
def isZero : Number → Bool
  | .integer value => value == 0
  | .double _ magnitude => magnitude.isZero

/-- The number written with the given sign and digits, without a fraction and
an exponent.  A negative zero is no integer. -/
def ofDigits (negative : Bool) (digits : Nat) : Number :=
  if negative then
    if 0 < digits ∧ digits ≤ Nat.pow 2 63 then .integer (-digits)
    else .double true (Double.ofNat digits)
  else .integer digits

/-- The double of a decimal, if it is not too large. -/
def ofDecimal? (negative : Bool) (significand : Nat) (exponent : Int) : Option Number :=
  (Double.ofDecimal? significand exponent).map (.double negative)

/-! ## Writing -/

/-- The text of an integer. -/
def integerText (value : Int) : Text :=
  if value < 0 then '-' :: Text.ofNat value.natAbs
  else Text.ofNat value.natAbs

/-- The text of an exponent, with its sign. -/
def exponentText (exponent : Int) : Text :=
  if exponent < 0 then '-' :: Text.ofNat exponent.natAbs
  else '+' :: Text.ofNat exponent.natAbs

/-- The text of a decimal by its digits, the last of which is not zero, and
its power of ten. -/
def layout (digits : Text) (power : Int) : Text :=
  let point : Int := digits.length + power
  if digits.isEmpty then ['0', '.', '0']
  else if 0 ≤ power ∧ point ≤ 16 then
    digits ++ List.replicate power.toNat '0' ++ ['.', '0']
  else if 0 < point ∧ point ≤ 16 then
    digits.take point.toNat ++ '.' :: digits.drop point.toNat
  else if -5 < point ∧ point ≤ 0 then
    ['0', '.'] ++ List.replicate (-point).toNat '0' ++ digits
  else
    let fraction : Text := if digits.length = 1 then [] else '.' :: digits.drop 1
    digits.take 1 ++ fraction ++ 'e' :: exponentText (point - 1)

/-- The text of a size. -/
def magnitudeText (magnitude : Double) : Text :=
  let (count, power) := magnitude.shortest
  let written := Text.ofNat count
  let digits := (written.reverse.dropWhile (· == '0')).reverse
  layout digits (power + (written.length - digits.length : Nat))

/-- The text of a number. -/
def text : Number → Text
  | .integer value => integerText value
  | .double negative magnitude =>
      (if negative then ['-'] else []) ++ magnitudeText magnitude

end Number

/-- The value of a numeral, unless it is too large. -/
def Numeral.value? (numeral : Numeral) : Option Number :=
  let (significand, skipped) := takeDigits 0 numeral.whole
  match numeral.fraction, numeral.exponent with
  | none, none =>
      if skipped = 0 then some (.ofDigits numeral.negative significand)
      else Number.ofDecimal? numeral.negative significand skipped
  | fraction, exponent =>
      let places := fraction.getD []
      let (significand, unused) := takeDigits significand places
      let power : Int := exponent.getD 0 + skipped - (places.length - unused : Nat)
      Number.ofDecimal? numeral.negative significand power

end Json
end ComponentPipeline
