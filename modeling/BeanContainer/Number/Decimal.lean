import BeanContainer.Number.Integer
import BeanContainer.Number.Binary
import BeanContainer.Text.Cut

/-!
# Decimal literals

A decimal literal is a sign, then digits with or without a point, then an
exponent, or one of the words for infinity and for no number.  It is read as the
nearest number of a binary format, whatever its length: the digits are kept
exactly and rounded once.
-/

namespace BeanContainer

/-- The exact number `digits * 10 ^ exponent` of an unsigned literal. -/
structure Decimal where
  digits : Nat
  exponent : Int
  deriving DecidableEq, Repr

namespace Decimal

/-- Reads a signed whole number of any size. -/
def readExponent? : List Char → Option Int
  | '-' :: digits => (Digits.read? digits).map fun number => -number
  | '+' :: digits => (Digits.read? digits).map fun number => number
  | digits => (Digits.read? digits).map fun number => number

/-- Reads digits with at most one point among them and at least one digit, as a
whole number of the last digit's unit. -/
def readSignificand? (text : List Char) : Option Decimal :=
  let (whole, fraction) :=
    match Text.cut? ['.'] text with
    | some (whole, fraction) => (whole, fraction)
    | none => (text, [])
  (Digits.read? (whole ++ fraction)).map fun digits => ⟨digits, -fraction.length⟩

/-- Reads an unsigned literal. -/
def read? (text : List Char) : Option Decimal :=
  let significand := text.takeWhile fun c => c ≠ 'e' && c ≠ 'E'
  match text.drop significand.length with
  | [] => readSignificand? significand
  | _ :: exponent => do
      let decimal ← readSignificand? significand
      let shift ← readExponent? exponent
      return { decimal with exponent := decimal.exponent + shift }

/-- How many digits it takes to write the number. -/
def digitCount (number : Nat) : Nat := (Nat.toDigits 10 number).length

/-- The pattern nearest to the number.  A number beyond the powers of ten that
surely overflow or vanish is not expanded. -/
def nearest (format : BinaryFormat) (decimal : Decimal) : Nat :=
  let size : Int := decimal.exponent + digitCount decimal.digits
  if decimal.digits = 0 ∨ size < -format.leastPower then 0
  else if format.overflowPower < size then format.infinity
  else if 0 ≤ decimal.exponent then
    Binary.nearest format (decimal.digits * Nat.pow 10 decimal.exponent.toNat) 1
  else Binary.nearest format decimal.digits (Nat.pow 10 (-decimal.exponent).toNat)

end Decimal

namespace Binary

/-- Reads an unsigned literal or word as a magnitude; the words are read without
regard to case. -/
def readMagnitude? (format : BinaryFormat) (text : List Char) : Option Nat :=
  let word := text.map Char.toLower
  if word = "inf".toList ∨ word = "infinity".toList then some format.infinity
  else if word = "nan".toList then some format.quiet
  else (Decimal.read? text).map (Decimal.nearest format)

/-- Reads a literal as the nearest number of the format. -/
def read? (format : BinaryFormat) : List Char → Option (Binary format)
  | '-' :: text => (readMagnitude? format text).map fun magnitude => ⟨true, magnitude⟩
  | '+' :: text => (readMagnitude? format text).map fun magnitude => ⟨false, magnitude⟩
  | text => (readMagnitude? format text).map fun magnitude => ⟨false, magnitude⟩

example : (read? .double "-.5e1".toList).map toBits = some 0xc014000000000000 := by decide +kernel
example : (read? .double "1e400".toList).map toBits = some 0x7ff0000000000000 := by decide +kernel
example : (read? .single "1e-46".toList).map toBits = some 0 := by decide +kernel
example : read? .double ".".toList = none := by decide +kernel

end Binary
end BeanContainer
