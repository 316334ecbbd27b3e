import BeanContainer.Definition

/-!
# Registered definitions

Definitions are registered under names of their own choosing or given ones, at
most one under each name.  A reference by type looks through all of them for the
candidates that can be handed out as the type.  In which order it meets them is
up to the registry: the order of the names, that of registration, or any other.
-/

namespace BeanContainer

/-- A way to go through definitions: it meets each of them once. -/
structure Visiting where
  arrange : List (String × Definition) → List (String × Definition)
  perm : ∀ entries, (arrange entries).Perm entries

namespace Visiting

/-- The order of the names, in which the definitions are kept. -/
def byName : Visiting := ⟨fun entries => entries, .refl⟩

instance : Inhabited Visiting := ⟨byName⟩

/-- The definition of the given name comes first, if there is one, and the others
follow as they did. -/
def startingWith (name : String) (visiting : Visiting) : Visiting where
  arrange entries :=
    let visited := visiting.arrange entries
    visited.filter (fun entry => entry.1 = name) ++ visited.filter fun entry => entry.1 ≠ name
  perm entries := by
    simpa using (List.filter_append_perm (fun entry : String × Definition => entry.1 = name)
      (visiting.arrange entries)).trans (visiting.perm entries)

/-- The given names come first, in their order. -/
def inOrder (names : List String) : Visiting := names.foldr startingWith byName

end Visiting

/-- Definitions by the names they are registered under. -/
structure Registry where
  definitions : Table String Definition := .empty
  /-- The order in which the definitions are visited. -/
  visiting : Visiting := .byName
  deriving Inhabited

namespace Registry

def empty : Registry := {}

/-- Registers a definition under a name that is not taken. -/
def register (registry : Registry) (name : String) (definition : Definition) :
    Except BeanError Registry :=
  if registry.definitions.contains name then .error (.duplicateDefinition name)
  else .ok { registry with definitions := registry.definitions.insert name definition }

/-- Removes the definition of the name. -/
def remove (registry : Registry) (name : String) : Except BeanError Registry :=
  if registry.definitions.contains name then .ok { registry with definitions := registry.definitions.erase name }
  else .error (.definitionNotFound name)

/-- The definition registered under the name. -/
def find? (registry : Registry) (name : String) : Option Definition :=
  registry.definitions.find? name

/-- The definition registered under the name, or the error of its absence. -/
def get (registry : Registry) (name : String) : Except BeanError Definition :=
  match registry.find? name with
  | some definition => .ok definition
  | none => .error (.definitionNotFound name)

/-- The same definitions, visited in another order. -/
def arrange (registry : Registry) (visiting : Visiting) : Registry := { registry with visiting }

/-- All definitions in the order of the visit. -/
def visit (registry : Registry) : List (String × Definition) :=
  registry.visiting.arrange registry.definitions.entries

theorem visit_perm (registry : Registry) : registry.visit.Perm registry.definitions.entries :=
  registry.visiting.perm _

theorem mem_visit_iff {registry : Registry} {name : String} {definition : Definition} :
    (name, definition) ∈ registry.visit ↔ registry.find? name = some definition :=
  registry.visit_perm.mem_iff.trans Table.find?_eq_some_iff.symm

/-- No name is visited twice. -/
theorem visit_keys_nodup (registry : Registry) : (registry.visit.map (·.1)).Nodup :=
  (registry.visit_perm.map _).nodup_iff.2 registry.definitions.keys_nodup

def size (registry : Registry) : Nat := registry.definitions.size

/-- The names of the definitions that can be handed out as the type. -/
def namesOf (registry : Registry) (type : TypeName) : List String :=
  (registry.visit.filter fun entry => entry.2.isAssignableTo type).map (·.1)

end Registry

/-- The definitions that can be handed out as a requested type. -/
structure Candidates where
  /-- The names of those that are marked as primary. -/
  primary : List String
  /-- The names of all of them. -/
  all : List String
  deriving DecidableEq, Repr

namespace Candidates

/-- The candidates among the visited definitions. -/
def among (visited : List (String × Definition)) (element : TypeName) : Candidates :=
  let assignable := visited.filter fun entry => entry.2.isAssignableTo element
  { primary := (assignable.filter fun entry => entry.2.isPrimary).map (·.1)
    all := assignable.map (·.1) }

/-- The bean for a place that takes one: the only primary candidate, or with no
primary one the only candidate.  Only a place that takes none tolerates that
there is no candidate, and none tolerates several. -/
def select (candidates : Candidates) (field type : String) (isOptional : Bool) :
    Except BeanError (Option String) :=
  match candidates.primary with
  | [name] => .ok (some name)
  | _ :: _ :: _ => .error (.ambiguousPrimary candidates.primary.length field type)
  | [] =>
      match candidates.all with
      | [] => if isOptional then .ok none else .error (.noCandidate field type)
      | [name] => .ok (some name)
      | _ :: _ :: _ => .error (.ambiguousCandidates candidates.all.length field type)

end Candidates

namespace Registry

/-- The candidates for the type among the registered definitions. -/
def candidates (registry : Registry) (element : TypeName) : Candidates :=
  Candidates.among registry.visit element

end Registry
end BeanContainer
