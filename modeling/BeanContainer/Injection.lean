import BeanContainer.Reference
import BeanContainer.Property.Conversion

/-!
# Injection points

A field or a constructor argument declares what it can hold, and its tag says
where that comes from.  Put together they make an injection point: a
position, a name, a type and a dependency.  The point of a field also knows the
cell that it is written to; the point of an argument has none.
-/

namespace BeanContainer

/-- Which beans a bean reference takes: those that can be handed out as the
element type, one of them or all. -/
structure BeanTarget where
  element : TypeName
  isMultiple : Bool
  deriving DecidableEq, Repr

namespace BeanTarget

/-- The type of what is injected. -/
def valueType (target : BeanTarget) : ValueType :=
  if target.isMultiple then .list (.bean target.element) else .bean target.element

/-- The beans as the injected value.  A list takes any number of beans, a single
reference exactly one, and either takes beans seen as the element type only. -/
def collect? (target : BeanTarget) (beans : List Value) : Option Value :=
  if target.isMultiple then Value.collect? (.bean target.element) beans
  else
    match beans with
    | [bean] => (bean.as? (.bean target.element)).map fun content => ⟨_, content⟩
    | _ => none

end BeanTarget

/-- What a field or a constructor argument can hold. -/
inductive Slot where
  | property (type : PropertyType)
  | bean (target : BeanTarget)
  deriving DecidableEq, Repr

namespace Slot

def valueType : Slot → ValueType
  | .property type => type.valueType
  | .bean target => target.valueType

end Slot

/-- What is injected: a property read as some type, or beans. -/
inductive Dependency where
  | property (reference : PropertyReference) (type : PropertyType)
  | bean (reference : BeanReference) (target : BeanTarget)
  deriving DecidableEq, Repr

namespace Dependency

/-- What the slot can hold. -/
def slot : Dependency → Slot
  | .property _ type => .property type
  | .bean _ target => .bean target

/-- Whether nothing may be injected. -/
def isOptional : Dependency → Bool
  | .property .. => false
  | .bean reference _ => reference.isOptional

/-- The dependency that the tag gives to a slot of the given name; none if the tag
is empty.  Properties and beans do not stand in for each other. -/
def declare (slot : Slot) (name tag : String) : Except Defect (Option Dependency) :=
  match Reference.parse tag with
  | .error defect => .error defect
  | .ok none => .ok none
  | .ok (some (.property reference)) =>
      match slot with
      | .property type => .ok (some (.property reference type))
      | .bean _ => .error (.beanExpected name)
  | .ok (some (.bean reference)) =>
      match slot with
      | .bean target => .ok (some (.bean reference target))
      | .property _ => .error (.propertyExpected name)

theorem slot_of_declare {slot : Slot} {name tag : String} {dependency : Dependency}
    (declared : declare slot name tag = .ok (some dependency)) : dependency.slot = slot := by
  unfold declare at declared
  split at declared
  · cases declared
  · cases declared
  · cases slot <;> cases declared
    rfl
  · cases slot <;> cases declared
    rfl

end Dependency

/-- The cell behind a field: the type of its beans and its name there. -/
structure Cell where
  owner : TypeName
  name : String
  deriving DecidableEq, Repr

/-- A field or constructor argument into which something is injected. -/
structure InjectionPoint where
  /-- The position among the declared fields or arguments. -/
  index : Nat
  name : String
  type : ValueType
  dependency : Dependency
  cell : Option Cell
  deriving DecidableEq, Repr

/-- The declaration of a field. -/
structure Field where
  name : String
  cell : String
  slot : Slot
  tag : String
  deriving DecidableEq, Repr

namespace Field

/-- The injection point of the field at the given position, if it is tagged. -/
def point? (field : Field) (owner : TypeName) (index : Nat) :
    Except Defect (Option InjectionPoint) :=
  (Dependency.declare field.slot field.name field.tag).map fun declared =>
    declared.map fun dependency =>
      { index, name := field.name, type := field.slot.valueType, dependency
        cell := some ⟨owner, field.cell⟩ }

/-- The injection points of fields, the first of which stands at the given
position.  The first defect wins, and fields with an empty tag leave a gap. -/
def points (owner : TypeName) : (index : Nat) → List Field → Except Defect (List InjectionPoint)
  | _, [] => .ok []
  | index, field :: fields => do
      let point ← field.point? owner index
      let rest ← points owner (index + 1) fields
      return point.toList ++ rest

end Field
end BeanContainer
