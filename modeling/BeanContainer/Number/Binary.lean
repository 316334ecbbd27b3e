/-!
# Binary floating-point numbers

Floating-point properties are kept as the bit patterns of the two interchange
formats.  Sign apart, a pattern is one number: the exponent field followed by the
fraction field.  Patterns ascend with the numbers they stand for, and rounding
up past the largest fraction carries into the exponent by itself.
-/

namespace BeanContainer

/-- An interchange format: the number of significant bits, the leading one
included, and the width of the exponent field. -/
structure BinaryFormat where
  precision : Nat
  exponentBits : Nat
  deriving DecidableEq, Repr

namespace BinaryFormat

/-- The 32-bit format. -/
def single : BinaryFormat := ⟨24, 8⟩

/-- The 64-bit format. -/
def double : BinaryFormat := ⟨53, 11⟩

/-- The width of a whole pattern, sign included. -/
def width (format : BinaryFormat) : Nat := format.precision + format.exponentBits

/-- Every number of this size or more is infinite: two to this power. -/
def overflowPower (format : BinaryFormat) : Nat := 1 <<< (format.exponentBits - 1)

/-- Two to minus this power is the least positive number. -/
def leastPower (format : BinaryFormat) : Nat := format.overflowPower + format.precision - 3

/-- The pattern of infinity, sign apart. -/
def infinity (format : BinaryFormat) : Nat :=
  (1 <<< format.exponentBits - 1) <<< (format.precision - 1)

/-- The pattern of the quiet number that is none. -/
def quiet (format : BinaryFormat) : Nat :=
  format.infinity + 1 <<< (format.precision - 2)

end BinaryFormat

/-- A pattern of the format, with its sign bit set apart. -/
structure Binary (format : BinaryFormat) where
  isNegative : Bool
  magnitude : Nat
  deriving DecidableEq, Repr

namespace Binary

variable {format : BinaryFormat}

/-- The whole pattern. -/
def toBits (number : Binary format) : Nat :=
  (if number.isNegative then 1 <<< (format.width - 1) else 0) + number.magnitude

def isNaN (number : Binary format) : Bool := format.infinity < number.magnitude

/-- The quotient rounded to the nearest whole number, a half to the even one. -/
def divideToEven (numerator denominator : Nat) : Nat :=
  let quotient := numerator / denominator
  let twice := 2 * (numerator % denominator)
  if denominator < twice ∨ denominator = twice ∧ quotient % 2 = 1 then quotient + 1 else quotient

/-- The greatest power of two that is at most the positive quotient. -/
def floorLog2 (numerator denominator : Nat) : Int :=
  let guess : Int := numerator.log2 - denominator.log2
  let reached :=
    if 0 ≤ guess then denominator <<< guess.toNat ≤ numerator
    else denominator ≤ numerator <<< (-guess).toNat
  if reached then guess else guess - 1

/-- The pattern nearest to a quotient, ties to the even pattern, capped at
infinity.  The quotient is measured in units of the last place that its size
leaves, and never in smaller units than the least positive number. -/
def nearest (format : BinaryFormat) (numerator denominator : Nat) : Nat :=
  if numerator = 0 then 0
  else
    let unit : Int :=
      max (floorLog2 numerator denominator - (format.precision - 1)) (-format.leastPower)
    let significand :=
      if 0 ≤ unit then divideToEven numerator (denominator <<< unit.toNat)
      else divideToEven (numerator <<< (-unit).toNat) denominator
    let raised := (unit + format.leastPower).toNat
    min (raised <<< (format.precision - 1) + significand) format.infinity

/-- A finite magnitude as `significand * 2 ^ (unit - leastPower)`, its unit
counted from the least positive number. -/
def decompose (number : Binary format) : Nat × Nat :=
  let field := number.magnitude >>> (format.precision - 1)
  let fraction := number.magnitude % 1 <<< (format.precision - 1)
  if field = 0 then (fraction, 0) else (fraction + 1 <<< (format.precision - 1), field - 1)

example : (⟨true, nearest .double 1 10⟩ : Binary .double).toBits = 0xbfb999999999999a := by
  decide +kernel
example : nearest .single 1 3 = 0x3eaaaaab := by decide +kernel

end Binary
end BeanContainer
