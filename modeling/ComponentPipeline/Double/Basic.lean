/-!
# Doubles

A double without its sign is a mantissa of at most 53 bits times a power of
two, whose exponent is at least -1074.  The mantissa has all 53 bits unless
the exponent is the least one, so every number has one form.  A result that is
too large to be a double keeps its exponent and is told by `isFinite`.

Products, quotients and powers of ten are exact first and rounded once, to the
nearest double and between two equally near ones to the even mantissa.
-/

namespace ComponentPipeline

/-- The number `mantissa · 2 ^ exponent`. -/
structure Double where
  /-- The digits in base two. -/
  mantissa : Nat
  /-- The power of two. -/
  exponent : Int
  deriving DecidableEq, Repr

namespace Double

/-- The least exponent. -/
def leastExponent : Int := -1074

/-- The exponent of the largest double. -/
def greatestExponent : Int := 971

/-- Zero. -/
def zero : Double := ⟨0, leastExponent⟩

/-- Whether a number is zero. -/
def isZero (number : Double) : Bool :=
  number.mantissa == 0

/-- Whether a number is small enough to be a double. -/
def isFinite (number : Double) : Bool :=
  number.exponent ≤ greatestExponent

/-! ## Rounding -/

/-- The natural number nearest to a quotient, of two equally near ones the
even one. -/
def nearest (numerator denominator : Nat) : Nat :=
  let below := numerator / denominator
  let doubled := 2 * (numerator % denominator)
  if doubled < denominator then below
  else if denominator < doubled then below + 1
  else if below % 2 = 0 then below
  else below + 1

/-- The nearest natural number is at most half away. -/
theorem nearest_bounds
    (numerator denominator : Nat)
    (positive : 0 < denominator) :
    2 * (nearest numerator denominator * denominator) ≤ 2 * numerator + denominator ∧
      2 * numerator ≤ 2 * (nearest numerator denominator * denominator) + denominator := by
  have parts := Nat.div_add_mod' numerator denominator
  have small := Nat.mod_lt numerator positive
  have next : (numerator / denominator + 1) * denominator =
      numerator / denominator * denominator + denominator := by
    rw [Nat.add_mul, Nat.one_mul]
  simp only [nearest]
  split
  · omega
  · split
    · omega
    · split <;> omega

/-- An exponent for which a quotient has 53 bits or one more, unless it is the
least one. -/
def estimatedExponent (numerator denominator : Nat) : Int :=
  max leastExponent ((numerator.log2 : Int) - denominator.log2 - 53)

/-- The exponent for which a quotient has 53 bits, or the least one. -/
def ratioExponent (numerator denominator : Nat) : Int :=
  let exponent := estimatedExponent numerator denominator
  let whole := numerator * Nat.pow 2 (-exponent).toNat / (denominator * Nat.pow 2 exponent.toNat)
  if whole < Nat.pow 2 53 then exponent else exponent + 1

/-- The double nearest to a quotient. -/
def ofRatio (numerator denominator : Nat) : Double :=
  if numerator = 0 then zero
  else
    let exponent := ratioExponent numerator denominator
    let mantissa :=
      nearest (numerator * Nat.pow 2 (-exponent).toNat) (denominator * Nat.pow 2 exponent.toNat)
    if mantissa = Nat.pow 2 53 then ⟨Nat.pow 2 52, exponent + 1⟩ else ⟨mantissa, exponent⟩

/-- The double nearest to a natural number. -/
def ofNat (number : Nat) : Double :=
  ofRatio number 1

/-- The product of two doubles, rounded. -/
def mul (first second : Double) : Double :=
  let exponent := first.exponent + second.exponent
  ofRatio (first.mantissa * second.mantissa * Nat.pow 2 exponent.toNat) (Nat.pow 2 (-exponent).toNat)

/-- The quotient of two doubles, rounded. -/
def div (first second : Double) : Double :=
  let exponent := first.exponent - second.exponent
  ofRatio (first.mantissa * Nat.pow 2 exponent.toNat) (second.mantissa * Nat.pow 2 (-exponent).toNat)

/-! ## Decimals -/

/-- The greatest power of ten that is a double. -/
def greatestPower : Nat := 308

/-- A power of ten, rounded. -/
def powerOfTen (power : Nat) : Double :=
  ofNat (Nat.pow 10 power)

/-- A double with its decimal point moved to the left, by at most
`greatestPower` places at a time. -/
def movePointLeft (number : Double) (places : Nat) : Double :=
  if places ≤ greatestPower then number.div (powerOfTen places)
  else if number.isZero then number
  else movePointLeft (number.div (powerOfTen greatestPower)) (places - greatestPower)
termination_by places
decreasing_by
  simp only [greatestPower] at *
  omega

/-- A double with its decimal point moved to the right, unless the result is
too large. -/
def movePointRight? (number : Double) (places : Nat) : Option Double :=
  if number.isZero then some number
  else if greatestPower < places then none
  else
    let moved := number.mul (powerOfTen places)
    if moved.isFinite then some moved else none

/-- The double of a decimal `significand · 10 ^ exponent`: the significand is
rounded first, and then its point is moved. -/
def ofDecimal? (significand : Nat) : (exponent : Int) → Option Double
  | .ofNat places => (ofNat significand).movePointRight? places
  | .negSucc places => some ((ofNat significand).movePointLeft (places + 1))

end Double
end ComponentPipeline
