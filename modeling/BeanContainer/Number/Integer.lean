/-!
# Integers of a fixed range

The integer types a property can be read as, their ranges, and how a literal is
read: an optional sign, then decimal digits and nothing else.  A minus sign is
only admitted by the signed types, also in front of zero.
-/

namespace BeanContainer

/-- The integer types, named by signedness and width.  The two address-sized
ones are 64 bits wide and differ from the 64-bit types in name only. -/
inductive IntegerType where
  | i8 | i16 | i32 | i64 | isize
  | u8 | u16 | u32 | u64 | usize
  deriving DecidableEq, Repr

namespace IntegerType

def bits : IntegerType → Nat
  | .i8 | .u8 => 8
  | .i16 | .u16 => 16
  | .i32 | .u32 => 32
  | .i64 | .u64 | .isize | .usize => 64

def isSigned : IntegerType → Bool
  | .i8 | .i16 | .i32 | .i64 | .isize => true
  | .u8 | .u16 | .u32 | .u64 | .usize => false

def name : IntegerType → String
  | .i8 => "i8"
  | .i16 => "i16"
  | .i32 => "i32"
  | .i64 => "i64"
  | .isize => "isize"
  | .u8 => "u8"
  | .u16 => "u16"
  | .u32 => "u32"
  | .u64 => "u64"
  | .usize => "usize"

/-- The least value of the type. -/
def lowest (type : IntegerType) : Int :=
  if type.isSigned then -(1 <<< (type.bits - 1) : Nat) else 0

/-- The greatest value of the type. -/
def highest (type : IntegerType) : Int :=
  if type.isSigned then (1 <<< (type.bits - 1) : Nat) - 1 else (1 <<< type.bits : Nat) - 1

/-- The numbers in the range of the type. -/
def Range (type : IntegerType) : Type :=
  { number : Int // type.lowest ≤ number ∧ number ≤ type.highest }

/-- The number as a value of the type, if it lies in the range. -/
def ofInt? (type : IntegerType) (number : Int) : Option type.Range :=
  if inside : type.lowest ≤ number ∧ number ≤ type.highest then some ⟨number, inside⟩ else none

theorem ofInt?_eq_some_iff {type : IntegerType} {number : Int} {value : type.Range} :
    type.ofInt? number = some value ↔ value.val = number := by
  simp only [ofInt?]
  constructor
  · intro equal
    split at equal
    next inside =>
      cases equal
      rfl
    next => cases equal
  · intro equal
    subst equal
    rw [dif_pos value.property]
    rfl

end IntegerType

namespace Digits

/-- The number that decimal digits spell, the most significant first. -/
def value (digits : List Char) : Nat :=
  digits.foldl (fun number digit => 10 * number + (digit.toNat - '0'.toNat)) 0

/-- Reads a text of one or more decimal digits. -/
def read? (text : List Char) : Option Nat :=
  if text ≠ [] ∧ text.all Char.isDigit then some (value text) else none

end Digits

namespace IntegerType

/-- Reads a literal: a sign, if any, and digits whose number lies in the range. -/
def read? (type : IntegerType) (text : List Char) : Option type.Range :=
  match text with
  | '+' :: digits => (Digits.read? digits).bind fun number => type.ofInt? number
  | '-' :: digits =>
      if type.isSigned then (Digits.read? digits).bind fun number => type.ofInt? (-number)
      else none
  | digits => (Digits.read? digits).bind fun number => type.ofInt? number

example : (i8.read? "-128".toList).map (·.val) = some (-128) := by decide
example : (i8.read? "+128".toList).map (·.val) = none := by decide
example : (u8.read? "-0".toList).map (·.val) = none := by decide
example : (u8.read? "0255".toList).map (·.val) = some 255 := by decide

end IntegerType
end BeanContainer
