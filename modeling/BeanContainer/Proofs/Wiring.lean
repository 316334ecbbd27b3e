import BeanContainer.Property.Store
import BeanContainer.Proofs.Dependency
import BeanContainer.Proofs.Places
import Mathlib.Data.List.Forall2

/-!
# When a bean is wired

A bean is wired at the place of an injection point if it holds there what is made of beans that
are provided under the names of the point.  Arguments of a constructor are wired as soon as the
bean is made of a supply with such values.
-/

namespace BeanContainer

/-- The value is injected into the point: the property that it refers to, or what is made of beans
that are provided under its names, as they looked at some time. -/
def InjectionPoint.Takes (point : InjectionPoint) (registry : Registry)
    (properties : PropertyStore) (provides : String → Bean → Prop) (value : Value) : Prop :=
  match point.dependency with
  | .property reference type =>
      ∃ content, properties.readAs type reference.name reference.default = .ok content ∧
        value = ⟨type.valueType, content⟩
  | .bean _ target =>
      ∃ names beans view, point.names registry = .ok names ∧ List.Forall₂ provides names beans ∧
        target.inject view beans = some value

namespace InjectionPoint.Takes

variable {point : InjectionPoint} {registry : Registry} {properties : PropertyStore}
  {provides more : String → Bean → Prop} {value : Value}

theorem mono (takes : point.Takes registry properties provides value)
    (implies : ∀ name bean, provides name bean → more name bean) :
    point.Takes registry properties more value := by
  unfold Takes at takes ⊢
  cases dependency : point.dependency with
  | property reference type =>
      rw [dependency] at takes
      exact takes
  | bean reference target =>
      rw [dependency] at takes
      obtain ⟨names, beans, view, isNames, provided, injects⟩ := takes
      exact ⟨names, beans, view, isNames, provided.imp implies, injects⟩

/-- What is injected has the type that the slot can hold. -/
theorem type_eq (takes : point.Takes registry properties provides value) :
    value.type = point.dependency.slot.valueType := by
  unfold Takes at takes
  cases dependency : point.dependency with
  | property reference type =>
      rw [dependency] at takes
      obtain ⟨content, _, rfl⟩ := takes
      rfl
  | bean reference target =>
      rw [dependency] at takes
      obtain ⟨_, _, _, _, _, injects⟩ := takes
      exact BeanTarget.type_of_inject injects

/-- A single bean that is injected is provided under one of the names. -/
theorem provides_of_bean? {bean : Bean}
    (takes : point.Takes registry properties provides value) (isBean : value.bean? = some bean) :
    ∃ name, provides name bean := by
  unfold Takes at takes
  cases dependency : point.dependency with
  | property reference type =>
      rw [dependency] at takes
      obtain ⟨content, _, rfl⟩ := takes
      cases type with
      | scalar => cases isBean
      | list => cases isBean
  | bean reference target =>
      rw [dependency] at takes
      obtain ⟨names, beans, view, _, provided, injects⟩ := takes
      unfold BeanTarget.inject at injects
      split at injects
      next =>
        cases injects
        cases isBean
      next =>
        obtain ⟨first, isFirst, rfl⟩ := Option.map_eq_some_iff.1 injects
        cases isBean
        obtain ⟨rest, rfl⟩ := List.head?_eq_some_iff.1 isFirst
        cases provided with
        | cons isProvided _ => exact ⟨_, isProvided⟩

end InjectionPoint.Takes

namespace Contents

/-- What the record holds at the place. -/
def at? (contents : Contents) : Place → Option Value
  | .argument index => contents.arguments[index]?
  | .cell name => contents.cells.find? name

/-- The record holds the value at the place, as it is or as one that may be missing. -/
def Holds (contents : Contents) (place : Place) (value : Value) : Prop :=
  contents.at? place = some value ∨ contents.at? place = some (.lift value.type (some value))

end Contents

/-- The record holds at the place what is injected there for provided beans. -/
def Definition.IsWired (definition : Definition) (registry : Registry)
    (properties : PropertyStore) (provides : String → Bean → Prop) (contents : Contents)
    (place : Place) : Prop :=
  ∀ point, definition.Injects point place →
    ∃ value, point.Takes registry properties provides value ∧ contents.Holds place value

namespace Definition.IsWired

variable {definition : Definition} {registry : Registry} {properties : PropertyStore}
  {provides more : String → Bean → Prop} {contents later : Contents} {place : Place}

theorem mono (wired : definition.IsWired registry properties provides contents place)
    (implies : ∀ name bean, provides name bean → more name bean)
    (same : later.at? place = contents.at? place) :
    definition.IsWired registry properties more later place := by
  intro point injects
  obtain ⟨value, takes, holds⟩ := wired point injects
  refine ⟨value, takes.mono implies, ?_⟩
  rw [Contents.Holds, same]
  exact holds

end Definition.IsWired

/-! ## Constructor arguments -/

/-- Points in the order of the inputs have ascending positions. -/
theorem Input.points_ascending {inputs : List Input} {first : Nat}
    (numbered : ∀ index point isLifted, inputs[index]? = some (.injected point isLifted) →
      point.index = first + index) :
    (∀ point ∈ inputs.filterMap point?, first ≤ point.index) ∧
      (inputs.filterMap point?).Pairwise fun point other => point.index < other.index := by
  induction inputs generalizing first with
  | nil => simp
  | cons input inputs ih =>
      have numberedLater : ∀ index point isLifted,
          inputs[index]? = some (.injected point isLifted) → point.index = first + 1 + index := by
        intro index point isLifted found
        have isAt := numbered (index + 1) point isLifted found
        omega
      obtain ⟨after, ascending⟩ := ih numberedLater
      cases input with
      | literal value =>
          exact ⟨fun point member => Nat.le_of_succ_le (after point member), ascending⟩
      | injected point isLifted =>
          have isFirst := numbered 0 point isLifted rfl
          refine ⟨?_, List.pairwise_cons.2 ⟨?_, ascending⟩⟩
          · intro other member
            rcases List.mem_cons.1 member with same | later
            · subst same
              omega
            · exact Nat.le_of_succ_le (after other later)
          · intro other member
            have behind := after other member
            omega

theorem Definition.Numbered.points_ascending {definition : Definition}
    (numbered : definition.Numbered) :
    definition.recipe.points.Pairwise fun point other => point.index < other.index := by
  cases recipe : definition.recipe with
  | blank => exact .nil
  | calling method inputs =>
      have isAt : ∀ index point isLifted, inputs[index]? = some (.injected point isLifted) →
          point.index = 0 + index := by
        intro index point isLifted found
        rw [Nat.zero_add]
        refine numbered.arguments index point isLifted ?_
        rw [recipe]
        exact found
      exact (Input.points_ascending isAt).2

theorem Recipe.mem_points_of_input? {recipe : Recipe} {index : Nat} {point : InjectionPoint}
    {isLifted : Bool} (isInput : recipe.input? index = some (.injected point isLifted)) :
    point ∈ recipe.points := by
  cases recipe with
  | blank => cases isInput
  | calling method inputs => exact List.mem_filterMap.2 ⟨_, List.mem_of_getElem? isInput, rfl⟩

/-- A method receives one argument for each parameter. -/
theorem Method.length_of_arguments {supply : Supply} {first : Nat} {parameters : List ValueType}
    {values : List Value} (taken : Method.arguments supply first parameters = .ok values) :
    values.length = parameters.length := by
  induction parameters generalizing first values with
  | nil =>
      cases taken
      rfl
  | cons parameter parameters ih =>
      unfold Method.arguments at taken
      split at taken
      next => cases taken
      next =>
        split at taken
        next =>
          cases rest : Method.arguments supply (first + 1) parameters with
          | error fault =>
              rw [rest] at taken
              cases taken
          | ok others =>
              rw [rest] at taken
              cases taken
              simp [ih rest]
        next => cases taken

/-- A constructor receives for the input at a position what was resolved for it. -/
theorem Declaration.argument_of_yields {declaration : Declaration} {definition : Definition}
    (declared : declaration.define = .ok definition) {supply : Supply} {arguments : List Value}
    {cells : List (String × Value)}
    (yields : definition.recipe.Yields supply arguments cells) {index : Nat} {input : Input}
    (isInput : definition.recipe.input? index = some input) :
    arguments[index]? = input.receives (supply.find? index) := by
  have chosen := (parts_of_define declared).2
  cases recipe : definition.recipe with
  | blank =>
      rw [recipe] at isInput
      cases isInput
  | calling method inputs =>
      rw [recipe] at isInput yields chosen
      have isInput : inputs[index]? = some input := isInput
      have taken := (Recipe.run_eq_ok yields).1
      have inside : index < arguments.length := by
        have fewer := Input.length_ofArguments_le (Recipe.method_of_choose chosen).2
        have isIndex := (List.getElem?_eq_some_iff.1 isInput).1
        rw [Method.length_of_arguments taken]
        omega
      have prepared := Method.find?_of_arguments taken (List.getElem?_eq_getElem inside)
      have received := Input.find?_prepareAll 0 index inputs supply
      rw [prepared, Nat.zero_add, isInput] at received
      rw [List.getElem?_eq_getElem inside]
      exact received

/-- The arguments of a bean are wired if they were resolved so. -/
theorem Definition.IsWired.of_yields {declaration : Declaration} {definition : Definition}
    (declared : declaration.define = .ok definition) {supply : Supply} {contents : Contents}
    {cells : List (String × Value)}
    (yields : definition.recipe.Yields supply contents.arguments cells) {registry : Registry}
    {properties : PropertyStore} {provides : String → Bean → Prop}
    (supplied : ∀ point ∈ definition.recipe.points, ∃ value,
      supply.find? point.index = some value ∧ point.Takes registry properties provides value)
    (index : Nat) :
    definition.IsWired registry properties provides contents (.argument index) := by
  intro point injects
  obtain ⟨isLifted, isInput⟩ := injects
  obtain ⟨value, found, takes⟩ := supplied point (Recipe.mem_points_of_input? isInput)
  have isAt := (Declaration.numbered_of_define declared).arguments index point isLifted isInput
  have received := Declaration.argument_of_yields declared yields isInput
  rw [← isAt, found] at received
  rw [← isAt]
  refine ⟨value, takes, ?_⟩
  cases isLifted with
  | false => exact .inl received
  | true =>
      refine .inr ?_
      rw [takes.type_eq]
      exact received

end BeanContainer
