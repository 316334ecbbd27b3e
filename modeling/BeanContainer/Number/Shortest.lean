import BeanContainer.Number.Decimal

/-!
# Shortest decimals

A binary number is written with the fewest digits that read back as the same
number; of several such decimals the nearest one is taken, and of two equally
near ones the even one.  The search runs over grids of one, two, … digits and
looks at the two neighbours of the number on each grid, in exact arithmetic.
-/

namespace BeanContainer.Shortest

/-- A positive number between the two limits of what rounds to it, all three as
numerators over one denominator.  The limits themselves round to the number just
when its significand is even. -/
structure Interval where
  lower : Nat
  number : Nat
  upper : Nat
  denominator : Nat
  closed : Bool

/-- The interval of the reals that round to a finite positive magnitude.  Below
a power of two the neighbours lie half as far apart as above it. -/
def interval {format : BinaryFormat} (number : Binary format) : Interval :=
  let (significand, raised) := number.decompose
  let atPower := significand = 1 <<< (format.precision - 1) ∧ 0 < raised
  let below := if atPower then 1 else 2
  let up := 1 <<< (raised - format.leastPower)
  let down := 1 <<< (format.leastPower - raised)
  { lower := (4 * significand - below) * up
    number := 4 * significand * up
    upper := (4 * significand + 2) * up
    denominator := 4 * down
    closed := significand % 2 = 0 }

/-- Whether `digits / grid` lies in the interval; a grid is a quotient of powers
of ten, `coarse / fine`. -/
def Interval.holds (range : Interval) (digits coarse fine : Nat) : Bool :=
  let value := digits * coarse * range.denominator
  if range.closed then range.lower * fine ≤ value && value ≤ range.upper * fine
  else range.lower * fine < value && value < range.upper * fine

/-- The neighbour of the number on the grid that lies in the interval, the nearer
one if both do. -/
def Interval.pick? (range : Interval) (coarse fine : Nat) : Option Nat :=
  let scaled := range.number * fine
  let step := coarse * range.denominator
  let floor := scaled / step
  let twice := 2 * (scaled % step)
  match range.holds floor coarse fine, range.holds (floor + 1) coarse fine with
  | true, false => some floor
  | false, true => some (floor + 1)
  | true, true =>
      some (if step < twice ∨ step = twice ∧ floor % 2 = 1 then floor + 1 else floor)
  | false, false => none

/-- The exponent of the number's first decimal digit. -/
def Interval.leadingExponent (range : Interval) : Int :=
  let guess : Int :=
    (Decimal.digitCount range.number : Int) - Decimal.digitCount range.denominator
  let reached :=
    if 0 ≤ guess then range.denominator * Nat.pow 10 guess.toNat ≤ range.number
    else range.denominator ≤ range.number * Nat.pow 10 (-guess).toNat
  if reached then guess else guess - 1

/-- Searches the grids from `places` digits on, `fuel` of them. -/
def Interval.search (range : Interval) (places : Nat) : (fuel : Nat) → Decimal
  | 0 => ⟨range.number, 0⟩
  | fuel + 1 =>
      let exponent := range.leadingExponent + 1 - places
      match range.pick? (Nat.pow 10 exponent.toNat) (Nat.pow 10 (-exponent).toNat) with
      | some digits => ⟨digits, exponent⟩
      | none => range.search (places + 1) fuel

/-- The same number without zeros at the end of its digits. -/
def stripZeros (exponent : Int) : (fuel digits : Nat) → Decimal
  | 0, digits => ⟨digits, exponent⟩
  | fuel + 1, digits =>
      if digits ≠ 0 ∧ digits % 10 = 0 then stripZeros (exponent + 1) fuel (digits / 10)
      else ⟨digits, exponent⟩

/-- The shortest decimal of a finite positive magnitude.  Seventeen digits tell
any two numbers of the 64-bit format apart. -/
def decimal {format : BinaryFormat} (number : Binary format) : Decimal :=
  let found := (interval number).search 1 17
  stripZeros found.exponent (Decimal.digitCount found.digits) found.digits

example : decimal (⟨false, Binary.nearest .double 3 10⟩ : Binary .double) = ⟨3, -1⟩ := by
  decide +kernel
example : decimal (⟨false, 1⟩ : Binary .double) = ⟨5, -324⟩ := by decide +kernel

end BeanContainer.Shortest
