import BeanContainer.Definition
import BeanContainer.Text.Quoted

/-!
# Outlines of definitions

A definition can be shown on one line, as nested records with named parts.  Type
identities are opaque and only hinted at.
-/

namespace BeanContainer

/-- A value as it is shown: a word or number, a text, a list, a set, a wrapped
value, or a record with named parts. -/
inductive Outline where
  | word (content : String)
  | text (content : String)
  | list (items : List Outline)
  | set (items : List Outline)
  | wrapped (name : String) (content : Outline)
  | record (name : String) (parts : List (String × Outline))

namespace Outline

mutual

/-- The outline on one line. -/
def render : Outline → String
  | .word content => content
  | .text content => Text.quote content
  | .list items => "[" ++ String.intercalate ", " (renderItems items) ++ "]"
  | .set items => "\x7b" ++ String.intercalate ", " (renderItems items) ++ "\x7d"
  | .wrapped name content => name ++ "(" ++ content.render ++ ")"
  | .record name parts =>
      name ++ " \x7b " ++ String.intercalate ", " (renderParts parts) ++ " \x7d"

def renderItems : List Outline → List String
  | [] => []
  | item :: items => item.render :: renderItems items

def renderParts : List (String × Outline) → List String
  | [] => []
  | (name, part) :: parts => (name ++ ": " ++ part.render) :: renderParts parts

end

def ofBool (flag : Bool) : Outline := .word (if flag then "true" else "false")

def ofNat (number : Nat) : Outline := .word (toString number)

/-- A text that may be missing. -/
def ofText? : Option String → Outline
  | none => .word "None"
  | some content => .wrapped "Some" (.text content)

/-- A type by its name, with a hint at its identity. -/
def ofType (name : String) : Outline :=
  .record "TypeInfo" [("type_name", .text name), ("type_id", .wrapped "TypeId" (.word "_"))]

end Outline

namespace Shape

def outline : Shape → Outline
  | .scalar => .word "Scalar"
  | .sequence => .word "Sequence"

end Shape

namespace Dependency

def outline : Dependency → Outline
  | .property reference type =>
      .record "Property"
        [("reference", .record "PropertyRef"
            [("name", .text reference.name), ("default", .ofText? reference.default)]),
         ("target", .record "PropertyTarget" [("shape", type.shape.outline)])]
  | .bean reference target =>
      .record "Bean"
        [("reference", .record "BeanRef"
            [("name", .text reference.name), ("optional", .ofBool reference.isOptional)]),
         ("target", .record "BeanTarget"
            [("element", .ofType target.element.text), ("multiple", .ofBool target.isMultiple)])]

end Dependency

namespace InjectionPoint

def outline (point : InjectionPoint) : Outline :=
  .record "FieldDescriptor"
    [("index", .ofNat point.index), ("name", .text point.name),
     ("typ", .ofType point.type.name), ("injection", point.dependency.outline)]

end InjectionPoint

namespace Scope

def outline : Scope → Outline
  | .singleton => .word "Singleton"
  | .prototype => .word "Prototype"

end Scope

namespace Definition

/-- The definition as nested records. -/
def outline (definition : Definition) : Outline :=
  .record "BeanDefinition"
    [("name", .text definition.name), ("type", .ofType definition.type.text),
     ("scope", definition.scope.outline), ("lazy", .ofBool definition.isLazy),
     ("primary", .ofBool definition.isPrimary),
     ("fields", .list (definition.fields.map InjectionPoint.outline)),
     ("constructor", .ofText? definition.recipe.methodName),
     ("casts", .set (definition.casts.targets.map fun target => .ofType target.text))]

end Definition
end BeanContainer
