import BeanContainer.TypeName
import BeanContainer.Number.Integer
import BeanContainer.Number.Binary

/-!
# Types of wired values

What a field or a constructor argument can hold: a scalar read from the
properties, a shared bean seen as one of the types it can be handed out as, a
list, or a value that may be missing.
-/

namespace BeanContainer

/-- The types a single property is read as. -/
inductive ScalarType where
  | text
  | bool
  | char
  | integer (type : IntegerType)
  | float (format : BinaryFormat)
  deriving DecidableEq, Repr, Inhabited

namespace ScalarType

def name : ScalarType → String
  | .text => "alloc::string::String"
  | .bool => "bool"
  | .char => "char"
  | .integer type => type.name
  | .float format => "f" ++ toString format.width

/-- The values of a scalar type. -/
def Denote : ScalarType → Type
  | .text => String
  | .bool => Bool
  | .char => Char
  | .integer type => type.Range
  | .float format => Binary format

end ScalarType

/-- The types of wired values. -/
inductive ValueType where
  | scalar (type : ScalarType)
  | bean (seenAs : TypeName)
  | list (element : ValueType)
  | option (element : ValueType)
  deriving DecidableEq, Repr, Inhabited

namespace ValueType

/-- The full name of the type, as it stands in messages. -/
def name : ValueType → String
  | .scalar type => type.name
  | .bean seenAs => "alloc::sync::Arc<" ++ seenAs.text ++ ">"
  | .list element => "alloc::vec::Vec<" ++ element.name ++ ">"
  | .option element => "core::option::Option<" ++ element.name ++ ">"

def typeName (type : ValueType) : TypeName := ⟨type.name⟩

end ValueType
end BeanContainer
