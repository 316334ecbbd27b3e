/-!
# Blank characters

Numbers and truth values may stand between blanks.  A blank is a character with
the Unicode property `White_Space`: the twenty-five below and no others.
-/

namespace BeanContainer.Text

/-- The code points with the Unicode property `White_Space`, as ranges. -/
def blankRanges : List (Nat × Nat) :=
  [(0x09, 0x0d), (0x20, 0x20), (0x85, 0x85), (0xa0, 0xa0), (0x1680, 0x1680),
   (0x2000, 0x200a), (0x2028, 0x2029), (0x202f, 0x202f), (0x205f, 0x205f), (0x3000, 0x3000)]

/-- Whether the character counts as white space. -/
def isBlank (c : Char) : Bool :=
  blankRanges.any fun (low, high) => low ≤ c.toNat && c.toNat ≤ high

/-- The text without the blanks at its two ends. -/
def trim (text : List Char) : List Char :=
  ((text.dropWhile isBlank).reverse.dropWhile isBlank).reverse

/-- There are twenty-five blanks. -/
example : (blankRanges.map fun (low, high) => high + 1 - low).sum = 25 := by decide

end BeanContainer.Text
