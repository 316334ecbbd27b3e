import BeanContainer.Value.Type
import BeanContainer.Bean

/-!
# Wired values

A value carries its type, so that what was resolved for a field can be checked
against what the field holds.  Values of one type are exactly the members of the
type's denotation: a list of beans seen as `E` holds beans seen as `E` only.
-/

namespace BeanContainer

/-- The members of a type. -/
def ValueType.Denote : ValueType → Type
  | .scalar type => type.Denote
  | .bean _ => Bean
  | .list element => List element.Denote
  | .option element => Option element.Denote

/-- A member of some type, together with that type. -/
structure Value where
  type : ValueType
  content : type.Denote

namespace Value

/-- The content, if the value has exactly the expected type. -/
def as? (value : Value) (type : ValueType) : Option type.Denote :=
  if equal : value.type = type then some (equal ▸ value.content) else none

@[simp] theorem as?_self (value : Value) : value.as? value.type = some value.content := by
  simp [as?]

theorem as?_eq_some_iff {value : Value} {type : ValueType} {content : type.Denote} :
    value.as? type = some content ↔ value = ⟨type, content⟩ := by
  constructor
  · intro found
    obtain ⟨valueType, valueContent⟩ := value
    simp only [as?] at found
    split at found
    next equal =>
      subst equal
      cases found
      rfl
    next => cases found
  · rintro rfl
    simp [as?]

/-- The value as one that may be missing: nothing, also if there is a value of
another type. -/
def lift (type : ValueType) (value : Option Value) : Value :=
  ⟨.option type, value.bind fun held => held.as? type⟩

/-- The bean as a value seen as one of its types. -/
def ofBean (seenAs : TypeName) (bean : Bean) : Value := ⟨.bean seenAs, bean⟩

/-- A list of values as one value, if they all have the element type. -/
def collect? (element : ValueType) (values : List Value) : Option Value :=
  (values.mapM fun (value : Value) => value.as? element).map fun contents =>
    ⟨.list element, contents⟩

def ofText (text : String) : Value := ⟨.scalar .text, text⟩

def ofBool (flag : Bool) : Value := ⟨.scalar .bool, flag⟩

end Value
end BeanContainer
