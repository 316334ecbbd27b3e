import BeanContainer.Number.Shortest

/-!
# Writing floating-point numbers

How the shortest decimal of a number is laid out: positionally while the
exponent of the first digit is moderate, and in scientific form beyond.
-/

namespace BeanContainer

/-- The decisions of a layout. -/
structure NumberLayout where
  /-- The least exponent of a first digit that is written positionally. -/
  leastPositional : Int
  /-- The greatest exponent of a first digit that is written positionally. -/
  greatestPositional : Int
  /-- What stands for the fraction of a whole number written positionally. -/
  emptyFraction : String
  /-- What introduces an exponent that is not negative. -/
  exponentMark : String
  /-- What introduces a negative exponent. -/
  negativeExponentMark : String

namespace NumberLayout

/-- The layout of stored properties: positional from `0.00001` to sixteen whole
digits and always with a fraction, otherwise an exponent that carries its sign. -/
def property : NumberLayout where
  leastPositional := -5
  greatestPositional := 15
  emptyFraction := ".0"
  exponentMark := "e+"
  negativeExponentMark := "e-"

/-- The digits with the point at its place. -/
def positional (layout : NumberLayout) (digits : String) (leading : Int) : String :=
  if leading < 0 then "0." ++ String.ofList (List.replicate (-leading - 1).toNat '0') ++ digits
  else
    let whole := leading.toNat + 1
    if digits.length ≤ whole then
      digits ++ String.ofList (List.replicate (whole - digits.length) '0') ++ layout.emptyFraction
    else String.ofList (digits.toList.take whole) ++ "." ++ String.ofList (digits.toList.drop whole)

/-- The first digit, the others behind a point, and the exponent. -/
def scientific (layout : NumberLayout) (digits : String) (leading : Int) : String :=
  let rest := digits.toList.drop 1
  String.ofList (digits.toList.take 1) ++ (if rest.isEmpty then "" else "." ++ String.ofList rest)
    ++ (if leading < 0 then layout.negativeExponentMark else layout.exponentMark)
    ++ toString leading.natAbs

/-- The text of a finite number. -/
def write (layout : NumberLayout) {format : BinaryFormat} (number : Binary format) : String :=
  let unsigned :=
    if number.magnitude = 0 then "0" ++ layout.emptyFraction
    else
      let decimal := Shortest.decimal number
      let digits := toString decimal.digits
      let leading : Int := decimal.exponent + digits.length - 1
      if layout.leastPositional ≤ leading ∧ leading ≤ layout.greatestPositional then
        layout.positional digits leading
      else layout.scientific digits leading
  if number.isNegative then "-" ++ unsigned else unsigned

end NumberLayout
end BeanContainer
