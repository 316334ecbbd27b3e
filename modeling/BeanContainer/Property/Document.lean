import BeanContainer.Number.Layout
import BeanContainer.Number.Numeral
import BeanContainer.Table

/-!
# Structured property values

A property can be set to a whole document of objects and arrays.  Each leaf of
it becomes a property of its own, whose key says where in the document the leaf
stands: `.field` for a field of an object, `[i]` for a place in an array.
-/

namespace BeanContainer

/-- A number of a document: a whole number of at most 64 bits, or a 64-bit
floating-point number. -/
inductive DocumentNumber where
  | whole (number : Int)
  | float (number : Binary .double)
  deriving DecidableEq, Repr

namespace DocumentNumber

/-- The number of a numeral.  One without fraction and exponent that fits a signed
or an unsigned word is whole, except for minus zero, whose sign only a
floating-point number keeps. -/
def ofNumeral? (numeral : Numeral) : Option DocumentNumber :=
  match numeral.scaled with
  | some mantissa => (Numeral.float? numeral.isNegative mantissa).map .float
  | none =>
      let word := numeral.whole.word
      if numeral.whole.isFull ∨ (numeral.isNegative ∧ (word = 0 ∨ 1 <<< 63 < word)) then
        (Numeral.float? numeral.isNegative numeral.whole).map .float
      else some (.whole (if numeral.isNegative then -word else word))

/-- Reads a numeral. -/
def read? (text : String) : Option DocumentNumber := (Numeral.read? text).bind ofNumeral?

def text : DocumentNumber → String
  | .whole number => toString number
  | .float number => NumberLayout.property.write number

end DocumentNumber

/-- A document. -/
inductive Document where
  | text (content : String)
  | number (content : DocumentNumber)
  | bool (content : Bool)
  | null
  | array (items : List Document)
  | object (fields : List (String × Document))

/-- One step from a document into a part of it. -/
inductive Step where
  | field (name : String)
  | item (index : Nat)
  deriving DecidableEq, Repr

namespace Step

/-- What the step adds to a key. -/
def text : Step → String
  | .field name => "." ++ name
  | .item index => "[" ++ toString index ++ "]"

end Step

/-- The way from a document to a part of it. -/
abbrev Path := List Step

namespace Path

/-- The key of a part: the key of the document, followed by the steps. -/
def extend (key : String) (path : Path) : String :=
  path.foldl (fun key step => key ++ step.text) key

end Path

namespace Document

/-- The object of the given fields in the order of their names, the last one of
each name. -/
def ofFields (fields : List (String × Document)) : Document :=
  .object (Table.ofList fields).entries

mutual

/-- The leaves of a document with the ways to them, in order. -/
def leaves : Document → List (Path × String)
  | .text content => [([], content)]
  | .number content => [([], content.text)]
  | .bool content => [([], if content then "true" else "false")]
  | .null => [([], "")]
  | .array items => itemLeaves 0 items
  | .object fields => fieldLeaves fields

/-- The leaves of array items, counted from the given place on. -/
def itemLeaves (index : Nat) : List Document → List (Path × String)
  | [] => []
  | item :: items =>
      (item.leaves.map fun leaf => (.item index :: leaf.1, leaf.2))
        ++ itemLeaves (index + 1) items

/-- The leaves of the fields of an object. -/
def fieldLeaves : List (String × Document) → List (Path × String)
  | [] => []
  | (name, value) :: fields =>
      (value.leaves.map fun leaf => (.field name :: leaf.1, leaf.2)) ++ fieldLeaves fields

end

/-- The properties that the document becomes when it is stored under the key. -/
def entries (key : String) (document : Document) : List (String × String) :=
  document.leaves.map fun leaf => (leaf.1.extend key, leaf.2)

end Document
end BeanContainer
