import BeanContainer.Property.Error
import BeanContainer.Number.Decimal
import BeanContainer.Text.Blank
import BeanContainer.Value.Basic

/-!
# Reading raw values as a type

Properties are kept as texts and read as the type of the field they go to.  A
scalar takes exactly one raw value; a list takes any number and reads each one
on its own.  Numbers and truth values may stand between blanks, texts and
characters are taken as they are.
-/

namespace BeanContainer

/-- How the values of a key are looked up: one value, or a sequence of them. -/
inductive Shape where
  | scalar
  | sequence
  deriving DecidableEq, Repr

/-- The types a property can be read as: a scalar, or a list of one. -/
inductive PropertyType where
  | scalar (type : ScalarType)
  | list (element : ScalarType)
  deriving DecidableEq, Repr

namespace ScalarType

/-- Reads a word for a truth value, without regard to ASCII case. -/
def readBool? (text : List Char) : Option Bool :=
  let word := String.ofList ((Text.trim text).map Char.toLower)
  if word ∈ ["true", "1", "yes", "on"] then some true
  else if word ∈ ["false", "0", "no", "off"] then some false
  else none

/-- Reads one raw value. -/
def read? : (type : ScalarType) → (raw : String) → Option type.Denote
  | .text, raw => some raw
  | .bool, raw => readBool? raw.toList
  | .char, raw =>
      match raw.toList with
      | [c] => some c
      | _ => none
  | .integer type, raw => type.read? (Text.trim raw.toList)
  | .float format, raw => Binary.read? format (Text.trim raw.toList)

/-- Reads one raw value of a key. -/
def convert (type : ScalarType) (key raw : String) : Except PropertyError type.Denote :=
  match type.read? raw with
  | some content => .ok content
  | none => .error (.conversion key raw type.name)

end ScalarType

namespace PropertyType

def shape : PropertyType → Shape
  | .scalar _ => .scalar
  | .list _ => .sequence

def valueType : PropertyType → ValueType
  | .scalar type => .scalar type
  | .list element => .list (.scalar element)

/-- Reads the raw values of a key as the type. -/
def convert : (type : PropertyType) → (key : String) → (raws : List String) →
    Except PropertyError type.valueType.Denote
  | .scalar type, key, [raw] => type.convert key raw
  | .scalar type, key, raws => .error (.conversion key (String.intercalate "," raws) type.name)
  | .list element, key, raws => raws.mapM fun raw => element.convert key raw

end PropertyType
end BeanContainer
