import BeanContainer.Error
import BeanContainer.Text.Cut

/-!
# References

A field or a constructor argument is tagged with a text that says what is wired
into it.  A tag refers to a property or to a bean, in one of four forms, and an
empty tag leaves a field alone:

* `value:${name}` reads a property, `value:${name:=default}` one with a default;
* `autowire:name` refers to a bean, `autowire:name,optional` to one that may be
  missing.

The name `?` stands for the bean, or all beans, of the right type.  The first
`:=` separates a property's name from its default, and the first comma a bean's
name from its qualifier, so every reference that is read has one written form.
-/

namespace BeanContainer

/-- A reference to a property. -/
structure PropertyReference where
  name : String
  default : Option String
  deriving DecidableEq, Repr

/-- A reference to a bean. -/
structure BeanReference where
  name : String
  isOptional : Bool
  deriving DecidableEq, Repr

namespace BeanReference

/-- Whether the bean is found by its type. -/
def isWildcard (reference : BeanReference) : Bool := reference.name = "?"

end BeanReference

/-- What a tag refers to. -/
inductive Reference where
  | property (reference : PropertyReference)
  | bean (reference : BeanReference)
  deriving DecidableEq, Repr

namespace Reference

/-- The word in front of a property reference. -/
def propertyWord : List Char := "value:".toList

/-- The word in front of a bean reference. -/
def beanWord : List Char := "autowire:".toList

/-- What opens the expression of a property reference. -/
def opening : List Char := "$\x7b".toList

/-- What closes the expression of a property reference. -/
def closing : List Char := "\x7d".toList

/-- What separates a property's name from its default. -/
def defaultMark : List Char := ":=".toList

/-- What separates a bean's name from its qualifier. -/
def qualifierMark : List Char := ",".toList

/-- The qualifier of a bean that may be missing. -/
def optionalWord : List Char := "optional".toList

/-- Reads what follows the word of a property reference. -/
def parseProperty (content : List Char) : Except Defect PropertyReference :=
  match (Text.dropFront? opening content).bind (Text.dropBack? closing) with
  | none => .error (.unmarkedProperty (String.ofList content))
  | some [] => .error .emptyProperty
  | some expression =>
      match Text.cut? defaultMark expression with
      | some (name, default) => .ok ⟨String.ofList name, some (String.ofList default)⟩
      | none => .ok ⟨String.ofList expression, none⟩

/-- Reads what follows the word of a bean reference. -/
def parseBean (content : List Char) : Except Defect BeanReference :=
  if content = [] then .error .emptyBean
  else
    match Text.cut? qualifierMark content with
    | none => .ok ⟨String.ofList content, false⟩
    | some (name, qualifier) =>
        if qualifier = optionalWord then .ok ⟨String.ofList name, true⟩
        else .error (.unknownQualifier (String.ofList qualifier))

/-- Reads a tag; an empty one refers to nothing. -/
def parse (tag : String) : Except Defect (Option Reference) :=
  let text := tag.toList
  if text = [] then .ok none
  else
    match Text.dropFront? propertyWord text with
    | some content => (parseProperty content).map fun reference => some (.property reference)
    | none =>
        match Text.dropFront? beanWord text with
        | some content => (parseBean content).map fun reference => some (.bean reference)
        | none => .error (.unknownTag tag)

/-- The tag of a reference. -/
def print : Reference → String
  | .property ⟨name, none⟩ => "value:$\x7b" ++ name ++ "\x7d"
  | .property ⟨name, some default⟩ => "value:$\x7b" ++ name ++ ":=" ++ default ++ "\x7d"
  | .bean ⟨name, false⟩ => "autowire:" ++ name
  | .bean ⟨name, true⟩ => "autowire:" ++ name ++ ",optional"

example : parse "value:$\x7ba.b:=x:=y\x7d" = .ok (some (.property ⟨"a.b", some "x:=y"⟩)) := rfl
example : parse "autowire:?,optional" = .ok (some (.bean ⟨"?", true⟩)) := rfl

end Reference
end BeanContainer
