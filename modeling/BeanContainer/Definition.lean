import BeanContainer.Method

/-!
# Bean definitions

A definition says how the beans of one name are made, wired and kept.  It is
built from a declaration, and everything that can be wrong with a declaration is
found then: a definition has a scope that exists, well-formed dependencies and
one way to make its beans.
-/

namespace BeanContainer

/-- How long a bean is kept: one for all requests, or one for each. -/
inductive Scope where
  | singleton
  | prototype
  deriving DecidableEq, Repr

namespace Scope

def name : Scope → String
  | .singleton => "singleton"
  | .prototype => "prototype"

/-- The scope of the given name. -/
def ofName? (name : String) : Except Defect Scope :=
  if name = "singleton" then .ok .singleton
  else if name = "prototype" then .ok .prototype
  else .error (.unsupportedScope name)

/-- Whether a scope of the container has the name. -/
def isReserved (name : String) : Bool := name = "singleton" || name = "prototype"

theorem isReserved_iff {name : String} :
    isReserved name = true ↔ ∃ scope, ofName? name = .ok scope := by
  simp only [isReserved, ofName?, Bool.or_eq_true, decide_eq_true_eq]
  by_cases one : name = "singleton"
  · simp [one]
  · by_cases two : name = "prototype"
    · simp [two]
    · simp [one, two]

end Scope

/-- The types that the beans of a definition can be handed out as.  A cast only
takes beans of the type it was declared for, and hands out the bean that it took,
seen as another type. -/
structure Casts where
  source : TypeName
  targets : List TypeName
  deriving DecidableEq, Repr, Inhabited

namespace Casts

/-- No type at all. -/
def empty : Casts := ⟨⟨""⟩, []⟩

/-- A bean can always be handed out as its own type. -/
def identity (type : TypeName) : Casts := ⟨type, [type]⟩

/-- Adds a target. -/
def add (casts : Casts) (target : TypeName) : Casts :=
  if target ∈ casts.targets then casts else { casts with targets := casts.targets ++ [target] }

def supports (casts : Casts) (target : TypeName) : Bool := target ∈ casts.targets

/-- The bean seen as the target. -/
def cast? (casts : Casts) (bean : Bean) (target : TypeName) : Option Value :=
  if casts.supports target ∧ bean.type = casts.source then some (.ofBean target bean) else none

end Casts

/-- How the beans of one name are made, wired and kept. -/
structure Definition where
  name : String
  type : TypeName
  scope : Scope
  isLazy : Bool
  isPrimary : Bool
  fields : List InjectionPoint
  recipe : Recipe
  casts : Casts

namespace Definition

/-- Whether the beans can be injected where the target is expected. -/
def isAssignableTo (definition : Definition) (target : TypeName) : Bool :=
  definition.casts.supports target

end Definition

/-- How a declaration gives the scope. -/
inductive ScopeChoice where
  | given (scope : Scope)
  | named (name : String)
  deriving DecidableEq, Repr

namespace ScopeChoice

def resolve : ScopeChoice → Except Defect Scope
  | .given scope => .ok scope
  | .named name => Scope.ofName? name

end ScopeChoice

/-- What is declared about a bean type and the beans of one name. -/
structure Declaration where
  type : TypeName
  /-- The name; the type's own name if there is none. -/
  name : Option String := none
  scope : ScopeChoice := .given .singleton
  isLazy : Bool := false
  isPrimary : Bool := false
  /-- Further types that the beans can be handed out as. -/
  implements : List TypeName := []
  fields : List Field := []
  methods : List Method := []
  arguments : List Argument := []
  filters : List MethodFilter := MethodFilter.default

namespace Declaration

/-- The definition that the declaration gives.  Scope, fields and constructor are
checked in this order, and the first error wins. -/
def define (declaration : Declaration) : Except BeanError Definition := do
  let scope ← declaration.scope.resolve.mapError .invalid
  let fields ← (Field.points declaration.type 0 declaration.fields).mapError .invalid
  let recipe ← Recipe.choose declaration.type declaration.methods declaration.filters
    declaration.arguments
  return {
    name := declaration.name.getD declaration.type.short
    type := declaration.type
    scope
    isLazy := declaration.isLazy
    isPrimary := declaration.isPrimary
    fields
    recipe
    casts := declaration.implements.foldl Casts.add (Casts.identity declaration.type) }

end Declaration
end BeanContainer
