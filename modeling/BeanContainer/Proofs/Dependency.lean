import BeanContainer.Registry
import Mathlib.Logic.Relation

/-!
# The dependency graph

An injection point leads to the names whose beans are requested when it is resolved: the
one it refers to, the candidate that is selected for it, or all candidates if it takes a
list.  The points of a definition make its name depend on others, by an argument of its
constructor or by a field.  Chains and cycles of dependencies are paths in this graph.
-/

namespace BeanContainer

namespace InjectionPoint

/-- The names whose beans are requested when the point is resolved, in their order. -/
def names (point : InjectionPoint) (registry : Registry) : Except BeanError (List String) :=
  match point.dependency with
  | .property .. => .ok []
  | .bean reference target =>
      if reference.isWildcard then
        let candidates := registry.candidates target.element
        if target.isMultiple then .ok candidates.all
        else
          (candidates.select point.name point.type.name reference.isOptional).map Option.toList
      else .ok [reference.name]

/-- Resolving the point leads to the name. -/
def LeadsTo (point : InjectionPoint) (registry : Registry) (name : String) : Prop :=
  ∃ names, point.names registry = .ok names ∧ name ∈ names

theorem leadsTo_iff {point : InjectionPoint} {registry : Registry} {name : String}
    {names : List String} (isNames : point.names registry = .ok names) :
    name ∈ names ↔ point.LeadsTo registry name := by
  constructor
  · intro member
    exact ⟨names, isNames, member⟩
  · intro leads
    obtain ⟨others, isOthers, member⟩ := leads
    rw [isNames] at isOthers
    cases isOthers
    exact member

instance (point : InjectionPoint) (registry : Registry) (name : String) :
    Decidable (point.LeadsTo registry name) :=
  match isNames : point.names registry with
  | .ok _ => decidable_of_iff _ (leadsTo_iff isNames)
  | .error _ => isFalse fun ⟨_, isOk, _⟩ => nomatch isNames.symm.trans isOk

end InjectionPoint

/-- A primary candidate is one of the candidates. -/
theorem Registry.primary_subset {registry : Registry} {element : TypeName} {name : String}
    (member : name ∈ (registry.candidates element).primary) :
    name ∈ (registry.candidates element).all := by
  simp only [Registry.candidates, Candidates.among, List.mem_map, List.mem_filter] at member ⊢
  obtain ⟨entry, ⟨assignable, _⟩, rfl⟩ := member
  exact ⟨entry, assignable, rfl⟩

/-- The selected bean is one of the candidates. -/
theorem Registry.mem_of_select {registry : Registry} {element : TypeName}
    {field type name : String} {isOptional : Bool}
    (selected : (registry.candidates element).select field type isOptional = .ok (some name)) :
    name ∈ (registry.candidates element).all := by
  unfold Candidates.select at selected
  split at selected
  next only primary =>
    cases selected
    exact primary_subset (by simp [primary])
  next => cases selected
  next =>
    split at selected
    next => split at selected <;> cases selected
    next only all =>
      cases selected
      simp [all]
    next => cases selected

/-- A reference by type leads to candidates for the type. -/
theorem InjectionPoint.LeadsTo.candidate {point : InjectionPoint} {registry : Registry}
    {name : String} {reference : BeanReference} {target : BeanTarget}
    (leads : point.LeadsTo registry name) (dependency : point.dependency = .bean reference target)
    (wildcard : reference.isWildcard = true) :
    name ∈ (registry.candidates target.element).all := by
  obtain ⟨names, isNames, member⟩ := leads
  simp only [InjectionPoint.names, dependency, wildcard, if_true] at isNames
  split at isNames
  · cases isNames
    exact member
  · cases selected : (registry.candidates target.element).select point.name point.type.name
        reference.isOptional with
    | error error =>
        rw [selected] at isNames
        cases isNames
    | ok found =>
        rw [selected] at isNames
        cases isNames
        rw [Option.mem_toList] at member
        cases member
        exact Registry.mem_of_select selected

/-- A point that takes one bean leads to one name at most. -/
theorem InjectionPoint.length_names_le {point : InjectionPoint} {registry : Registry}
    {reference : BeanReference} {target : BeanTarget} {names : List String}
    (dependency : point.dependency = .bean reference target)
    (isNames : point.names registry = .ok names) :
    target.isMultiple = true ∨ names.length ≤ 1 := by
  simp only [InjectionPoint.names, dependency] at isNames
  split at isNames
  · split at isNames
    next multiple => exact .inl multiple
    next =>
      right
      cases selected : (registry.candidates target.element).select point.name point.type.name
          reference.isOptional with
      | error error =>
          rw [selected] at isNames
          cases isNames
      | ok found =>
          rw [selected] at isNames
          cases isNames
          cases found <;> simp
  · cases isNames
    exact .inr (Nat.le_refl 1)

/-- The name is the only primary candidate, or with no primary one the only candidate. -/
def Candidates.Selects (candidates : Candidates) (name : String) : Prop :=
  candidates.primary = [name] ∨ candidates.primary = [] ∧ candidates.all = [name]

theorem Candidates.selects_of_select {candidates : Candidates} {field type name : String}
    {isOptional : Bool} (selected : candidates.select field type isOptional = .ok (some name)) :
    candidates.Selects name := by
  unfold select at selected
  split at selected
  next only primary =>
    cases selected
    exact .inl primary
  next => cases selected
  next none =>
    split at selected
    next => split at selected <;> cases selected
    next only all =>
      cases selected
      exact .inr ⟨none, all⟩
    next => cases selected

/-- Nothing is selected only if nothing may be and there is no candidate. -/
theorem Candidates.all_of_select {candidates : Candidates} {field type : String}
    {isOptional : Bool} (selected : candidates.select field type isOptional = .ok none) :
    isOptional = true ∧ candidates.all = [] := by
  unfold select at selected
  split at selected
  next => cases selected
  next => cases selected
  next =>
    split at selected
    next all =>
      split at selected
      next optional => exact ⟨optional, all⟩
      next => cases selected
    next => cases selected
    next => cases selected

/-- If no single bean is found among candidates, none or several were. -/
theorem Candidates.select_kind (candidates : Candidates) {field type : String}
    {isOptional : Bool} {error : BeanError}
    (failed : candidates.select field type isOptional = .error error) :
    error.kind = .notFound ∨ error.kind = .ambiguous := by
  unfold Candidates.select at failed
  split at failed
  · cases failed
  · cases failed
    exact .inr rfl
  · split at failed
    · split at failed
      · cases failed
      · cases failed
        exact .inl rfl
    · cases failed
    · cases failed
      exact .inr rfl

/-- If the names of a point cannot be told, no or several beans come into question. -/
theorem InjectionPoint.names_kind (point : InjectionPoint) {registry : Registry}
    {error : BeanError} (failed : point.names registry = .error error) :
    error.kind = .notFound ∨ error.kind = .ambiguous := by
  unfold InjectionPoint.names at failed
  split at failed
  · cases failed
  next reference target _ =>
    simp only [] at failed
    split at failed
    · split at failed
      · cases failed
      · cases selected : (registry.candidates target.element).select point.name point.type.name
            reference.isOptional with
        | ok found =>
            rw [selected] at failed
            cases failed
        | error fault =>
            rw [selected] at failed
            cases failed
            exact Candidates.select_kind _ selected
    · cases failed

namespace Registry

open Relation

/-- A constructor argument of the name's definition leads to the other name. -/
def DependsByArgument (registry : Registry) (name other : String) : Prop :=
  ∃ definition, registry.find? name = some definition ∧
    ∃ point ∈ definition.recipe.points, point.LeadsTo registry other

/-- A field of the name's definition leads to the other name. -/
def DependsByField (registry : Registry) (name other : String) : Prop :=
  ∃ definition, registry.find? name = some definition ∧
    ∃ point ∈ definition.fields, point.LeadsTo registry other

/-- The name depends on the other one. -/
def DependsOn (registry : Registry) (name other : String) : Prop :=
  registry.DependsByArgument name other ∨ registry.DependsByField name other

/-- What holds of the definition of a name can be decided by looking it up. -/
instance decidableRegistered (registry : Registry) (name : String) (holds : Definition → Prop)
    [DecidablePred holds] :
    Decidable (∃ definition, registry.find? name = some definition ∧ holds definition) :=
  match registry.find? name with
  | none => isFalse fun ⟨_, registered, _⟩ => nomatch registered
  | some definition =>
      decidable_of_iff (holds definition)
        ⟨fun isSo => ⟨definition, rfl, isSo⟩, fun ⟨_, registered, isSo⟩ =>
          Option.some.inj registered ▸ isSo⟩

instance (registry : Registry) (name other : String) :
    Decidable (registry.DependsByArgument name other) :=
  registry.decidableRegistered name fun definition =>
    ∃ point ∈ definition.recipe.points, point.LeadsTo registry other

instance (registry : Registry) (name other : String) :
    Decidable (registry.DependsByField name other) :=
  registry.decidableRegistered name fun definition =>
    ∃ point ∈ definition.fields, point.LeadsTo registry other

instance (registry : Registry) (name other : String) :
    Decidable (registry.DependsOn name other) :=
  inferInstanceAs (Decidable (_ ∨ _))

/-- What holds of the names that the points of all definitions lead to holds of all
dependencies. -/
theorem forall_dependsOn {registry : Registry} (holds : String → String → Prop)
    (every : ∀ entry ∈ registry.visit, ∀ point ∈ entry.2.recipe.points ++ entry.2.fields,
      ∀ next ∈ (point.names registry).toOption.getD [], holds entry.1 next)
    {name next : String} (depends : registry.DependsOn name next) : holds name next := by
  have led : ∀ definition, registry.find? name = some definition →
      ∀ point ∈ definition.recipe.points ++ definition.fields, point.LeadsTo registry next →
        holds name next := by
    intro definition registered point isPoint ⟨names, isNames, member⟩
    refine every (name, definition) (Registry.mem_visit_iff.2 registered) point isPoint next ?_
    rw [isNames]
    exact member
  rcases depends with ⟨definition, registered, point, isPoint, leads⟩ |
    ⟨definition, registered, point, isPoint, leads⟩
  · exact led definition registered point (List.mem_append_left _ isPoint) leads
  · exact led definition registered point (List.mem_append_right _ isPoint) leads

/-- A chain of dependencies leads from the name to the other one; the empty chain leads
from each name to itself. -/
abbrev Reaches (registry : Registry) : String → String → Prop := ReflTransGen registry.DependsOn

end Registry

/-- No reference of a registered definition is optional. -/
def Registry.IsRequired (registry : Registry) : Prop :=
  ∀ name definition, registry.find? name = some definition →
    (∀ point ∈ definition.recipe.points, point.dependency.isOptional = false) ∧
      ∀ point ∈ definition.fields, point.dependency.isOptional = false

theorem Registry.IsRequired.of_mem {registry : Registry} (required : registry.IsRequired)
    {name : String} {definition : Definition}
    (registered : registry.find? name = some definition) {point : InjectionPoint}
    (isPoint : point ∈ definition.recipe.points ++ definition.fields) :
    point.dependency.isOptional = false := by
  obtain ⟨arguments, fields⟩ := required name definition registered
  rcases List.mem_append.1 isPoint with isArgument | isField
  · exact arguments point isArgument
  · exact fields point isField

/-- All registered definitions can be looked through for optional references. -/
instance (registry : Registry) : Decidable registry.IsRequired :=
  decidable_of_iff
    (∀ entry ∈ registry.visit,
      (∀ point ∈ entry.2.recipe.points, point.dependency.isOptional = false) ∧
        ∀ point ∈ entry.2.fields, point.dependency.isOptional = false)
    ⟨fun every name definition registered =>
        every (name, definition) (Registry.mem_visit_iff.2 registered),
      fun required entry member =>
        required entry.1 entry.2 (Registry.mem_visit_iff.1 member)⟩

end BeanContainer
