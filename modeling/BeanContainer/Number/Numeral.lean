import BeanContainer.Number.Integer
import BeanContainer.Number.Binary
import BeanContainer.Text.Cut

/-!
# Numerals of documents

The numerals of a document are read in one pass with little memory: of the
digits only as many are kept as fit a word of 64 bits, and the digits after
those merely count.  A fraction or an exponent makes the numeral a floating-point
number, which is rounded twice, once when the kept digits are converted and once
when the power of ten is applied.  Short numerals come out as the nearest
number; long ones may be off in the last place.
-/

namespace BeanContainer

/-- The digits of a numeral as a word and a power of ten. -/
structure Mantissa where
  word : Nat := 0
  exponent : Int := 0
  /-- Whether further digits of this part only count. -/
  isFull : Bool := false
  deriving DecidableEq, Repr

namespace Mantissa

/-- The greatest word. -/
def greatest : Nat := 1 <<< 64 - 1

/-- Takes a digit of the whole part.  One that no longer fits raises the exponent. -/
def takeWhole (mantissa : Mantissa) (digit : Char) : Mantissa :=
  let next := 10 * mantissa.word + (digit.toNat - '0'.toNat)
  if mantissa.isFull ∨ greatest < next then
    { mantissa with exponent := mantissa.exponent + 1, isFull := true }
  else { mantissa with word := next }

/-- Takes a digit of the fraction.  One that no longer fits is dropped. -/
def takeFraction (mantissa : Mantissa) (digit : Char) : Mantissa :=
  let next := 10 * mantissa.word + (digit.toNat - '0'.toNat)
  if mantissa.isFull ∨ greatest < next then { mantissa with isFull := true }
  else { mantissa with word := next, exponent := mantissa.exponent - 1 }

end Mantissa

/-- A numeral: its sign and digits, and the whole part apart. -/
structure Numeral where
  isNegative : Bool
  /-- The digits of the whole part. -/
  whole : Mantissa
  /-- All digits and the exponent, if there is a fraction or an exponent. -/
  scaled : Option Mantissa
  deriving DecidableEq, Repr

namespace Numeral

/-- Splits digits off the start of the text. -/
def splitDigits (text : List Char) : List Char × List Char :=
  (text.takeWhile Char.isDigit, text.dropWhile Char.isDigit)

/-- Reads a signed exponent that makes up the whole text. -/
def readExponent? (text : List Char) : Option Int :=
  match text with
  | '-' :: digits => (Digits.read? digits).map fun number => -number
  | '+' :: digits => (Digits.read? digits).map fun number => number
  | digits => (Digits.read? digits).map fun number => number

/-- Reads what follows the whole part. -/
def readTail? (whole : Mantissa) (text : List Char) : Option (Option Mantissa) := do
  let opened := { whole with isFull := false }
  let (mantissa, rest, hasFraction) ←
    match text with
    | '.' :: rest =>
        match splitDigits rest with
        | ([], _) => none
        | (digits, rest) => some (digits.foldl Mantissa.takeFraction opened, rest, true)
    | rest => some (opened, rest, false)
  match rest with
  | [] => return if hasFraction then some mantissa else none
  | e :: exponent =>
      if e = 'e' ∨ e = 'E' then
        let shift ← readExponent? exponent
        return some { mantissa with exponent := mantissa.exponent + shift }
      else none

/-- Reads an unsigned numeral: a whole part without needless zeros in front, then
a fraction, an exponent, both or neither. -/
def readUnsigned? (isNegative : Bool) (text : List Char) : Option Numeral := do
  let (digits, rest) := splitDigits text
  if digits = [] ∨ (digits.head? = some '0' ∧ 1 < digits.length) then none
  else
    let whole := digits.foldl Mantissa.takeWhole {}
    return { isNegative, whole, scaled := ← readTail? whole rest }

/-- Reads a numeral. -/
def read? (text : String) : Option Numeral :=
  match text.toList with
  | '-' :: digits => readUnsigned? true digits
  | digits => readUnsigned? false digits

/-! ## Arithmetic of magnitudes -/

/-- The magnitude of the product or quotient of a finite magnitude and a positive
whole number that is rounded first. -/
def times (magnitude factor : Nat) (inverse : Bool) : Nat :=
  let (one, oneRaised) := Binary.decompose (⟨false, magnitude⟩ : Binary .double)
  let rounded := Binary.nearest .double factor 1
  let (other, otherRaised) := Binary.decompose (⟨false, rounded⟩ : Binary .double)
  let least := BinaryFormat.double.leastPower
  if inverse then Binary.nearest .double (one <<< oneRaised) (other <<< otherRaised)
  else Binary.nearest .double ((one * other) <<< (oneRaised + otherRaised)) (1 <<< (2 * least))

/-- The greatest power of ten that is applied at once. -/
def greatestPower : Nat := 308

/-- Applies a power of ten; none if the result is infinite.  Great negative powers
are applied in several steps. -/
def scale? : (steps : Nat) → (magnitude : Nat) → (exponent : Int) → Option Nat
  | steps, magnitude, exponent =>
      if magnitude = 0 then some 0
      else if 0 ≤ exponent then
        if greatestPower < exponent then none
        else
          let scaled := times magnitude (Nat.pow 10 exponent.toNat) false
          if scaled = BinaryFormat.double.infinity then none else some scaled
      else if -greatestPower ≤ exponent then
        some (times magnitude (Nat.pow 10 (-exponent).toNat) true)
      else
        match steps with
        | 0 => some 0
        | steps + 1 =>
            scale? steps (times magnitude (Nat.pow 10 greatestPower) true)
              (exponent + greatestPower)

/-- The magnitude of a mantissa; none if it is infinite.  After three steps of the
greatest power nothing is left of any word. -/
def magnitude? (mantissa : Mantissa) : Option Nat :=
  scale? 3 (Binary.nearest .double mantissa.word 1) mantissa.exponent

/-- The floating-point number of a mantissa. -/
def float? (isNegative : Bool) (mantissa : Mantissa) : Option (Binary .double) :=
  (magnitude? mantissa).map fun magnitude => ⟨isNegative, magnitude⟩

end Numeral
end BeanContainer
