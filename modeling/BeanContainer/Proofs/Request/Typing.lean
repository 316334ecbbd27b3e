import BeanContainer.Proofs.Heap.Filling
import BeanContainer.Proofs.Request.Fields
import BeanContainer.Proofs.Wiring

/-!
# Types of resolved values

What is resolved for a point has the type that its slot can hold.  For a declared definition this
is the type of the field, and the type of the parameter or what this parameter may be missing.
So if a method has as many parameters as arguments, nothing that is resolved for it is missing or
of another type, and only the method itself can refuse its arguments.
-/

namespace BeanContainer

/-! ## Declared points and inputs -/

/-- What the method receives for the input has the type of the parameter, and it is missing only
if the parameter says so. -/
inductive Input.Suits : Input → ValueType → Prop
  | literal (value : Value) : Suits (.literal value) value.type
  | required {point : InjectionPoint} (type : point.type = point.dependency.slot.valueType)
      (required : point.dependency.isOptional = false) : Suits (.injected point false) point.type
  | lifted {point : InjectionPoint} (type : point.type = .option point.dependency.slot.valueType) :
      Suits (.injected point true) point.type

/-- A declared argument suits its parameter. -/
theorem Input.suits_of_ofArgument {owner : TypeName} {method : Method} {index : Nat}
    {argument : Argument} {parameter : ValueType} {input : Input}
    (declared : ofArgument owner method index argument parameter = .ok input) :
    input.Suits parameter := by
  unfold ofArgument at declared
  split at declared
  next => cases declared
  next sameType =>
    have sameType : argument.type = parameter := Decidable.not_not.1 sameType
    subst sameType
    cases argument with
    | literal value =>
        cases declared
        exact .literal value
    | wired slot tag isLifted =>
        simp only [] at declared
        split at declared
        next => cases declared
        next => cases declared
        next dependency isDeclared =>
          have slotOf := Dependency.slot_of_declare isDeclared
          split at declared
          next => cases declared
          next tolerated =>
            cases declared
            cases isLifted with
            | true =>
                refine @Input.Suits.lifted ⟨index, _, _, dependency, none⟩ ?_
                rw [slotOf]
                rfl
            | false =>
                refine @Input.Suits.required ⟨index, _, _, dependency, none⟩ ?_ ?_
                · rw [slotOf]
                  rfl
                · simpa using tolerated

/-- As many declared arguments as parameters suit them one by one. -/
theorem Input.suits_of_ofArguments {owner : TypeName} {method : Method} {first : Nat}
    {arguments : List Argument} {parameters : List ValueType} {inputs : List Input}
    (declared : ofArguments owner method first arguments parameters = .ok inputs)
    (length : parameters.length = arguments.length) :
    List.Forall₂ Input.Suits inputs parameters := by
  induction arguments generalizing first parameters inputs with
  | nil =>
      cases parameters with
      | cons parameter parameters => simp at length
      | nil =>
          cases declared
          exact .nil
  | cons argument arguments ih =>
      cases parameters with
      | nil => simp at length
      | cons parameter parameters =>
          unfold ofArguments at declared
          obtain ⟨input, own, declaredRest⟩ := bind_eq_ok_iff.1 declared
          obtain ⟨rest, others, equal⟩ := bind_eq_ok_iff.1 declaredRest
          cases equal
          exact .cons (suits_of_ofArgument own) (ih others (Nat.succ.inj length))

/-- A chosen method passes all filters. -/
theorem Recipe.passes_of_choose {owner : TypeName} {methods : List Method}
    {filters : List MethodFilter} {arguments : List Argument} {method : Method}
    {inputs : List Input}
    (chosen : Recipe.choose owner methods filters arguments = .ok (.calling method inputs))
    {filter : MethodFilter} (isFilter : filter ∈ filters) : filter owner method arguments = true := by
  unfold Recipe.choose at chosen
  split at chosen
  next => cases chosen
  next other only =>
    have passes := (List.mem_filter.1 (only.symm ▸ List.mem_singleton_self other)).2
    cases made : Recipe.ofMethod owner other arguments with
    | error defect =>
        rw [made] at chosen
        cases chosen
    | ok calling =>
        rw [made] at chosen
        cases chosen
        unfold Recipe.ofMethod Except.map at made
        split at made
        next => cases made
        next =>
          cases made
          exact List.all_eq_true.1 passes filter isFilter
  next => cases chosen

/-- Fields and inputs of the definition have the types of what is resolved for them, and belong to
its beans. -/
structure Definition.Typed (definition : Definition) : Prop where
  fields : ∀ point ∈ definition.fields, point.type = point.dependency.slot.valueType ∧
    ∃ cell, point.cell = some cell ∧ cell.owner = definition.type
  ascending : definition.fields.Pairwise fun point other => point.index < other.index
  numbered : definition.Numbered
  inputs : ∀ method inputs, definition.recipe = .calling method inputs →
    List.Forall₂ Input.Suits inputs method.parameters

/-- A declaration whose methods are chosen by their number of parameters gives such a
definition. -/
theorem Declaration.typed_of_define {declaration : Declaration} {definition : Definition}
    (declared : declaration.define = .ok definition)
    (byArity : MethodFilter.byArity ∈ declaration.filters) : definition.Typed where
  fields point isPoint := by
    obtain ⟨field, _, isOn, type⟩ := Field.of_mem_points (points_of_define declared) isPoint
    exact ⟨type, _, isOn, (type_of_define declared).1.symm⟩
  ascending := (Field.points_numbered (points_of_define declared)).2
  numbered := numbered_of_define declared
  inputs method inputs recipe := by
    have chosen := (parts_of_define declared).2
    rw [recipe] at chosen
    refine Input.suits_of_ofArguments (Recipe.method_of_choose chosen).2 ?_
    simpa [MethodFilter.byArity] using Recipe.passes_of_choose chosen byArity

/-! ## Resolved values -/

namespace Container

variable {registry : Registry} {properties : PropertyStore} {view : Heap}
  {sees : Asked → Heap → Prop} {point : InjectionPoint} {points : List InjectionPoint}
  {asked : Asked} {supply : Supply} {value : Value}

/-- What is found for a point has the type that its slot can hold. -/
theorem Outcome.type_eq
    (outcome : Outcome registry properties view point asked (.ok (some value))) :
    value.type = point.dependency.slot.valueType := by
  cases outcome with
  | read dependency =>
      rw [dependency]
      rfl
  | served dependency _ _ injects =>
      rw [dependency]
      exact BeanTarget.type_of_inject injects

/-- Something is found for a point that is not optional. -/
theorem Outcome.isSome {found : Option Value} (required : point.dependency.isOptional = false)
    (outcome : Outcome registry properties view point asked (.ok found)) :
    ∃ value, found = some value := by
  cases outcome with
  | read => exact ⟨_, rfl⟩
  | missing dependency _ optional =>
      rw [dependency] at required
      exact absurd (optional.symm.trans required) nofun
  | @served reference target names _ handouts _ dependency isNames serves injects =>
      unfold BeanTarget.inject at injects
      split at injects
      next => exact ⟨_, injects.symm⟩
      next single =>
        cases handouts with
        | cons handout handouts => exact ⟨_, injects.symm⟩
        | nil =>
            -- No bean was had, so there was no name, which only an optional reference tolerates.
            have noNames : names = [] := List.forall₂_nil_right_iff.1 serves.handedOut
            subst noNames
            rw [dependency] at required
            simp only [InjectionPoint.names, dependency, if_neg single] at isNames
            split at isNames
            next =>
              cases selected : (registry.candidates target.element).select point.name
                  point.type.name reference.isOptional with
              | error error =>
                  rw [selected] at isNames
                  cases isNames
              | ok name =>
                  rw [selected] at isNames
                  cases name with
                  | some name => cases isNames
                  | none =>
                      have optional := (Candidates.all_of_select selected).1
                      exact absurd (optional.symm.trans required) nofun
            next => cases isNames

namespace Gathers

variable (gathers : Gathers registry properties sees points .empty asked (.ok supply))
  (ascending : points.Pairwise fun point other => point.index < other.index)
include gathers ascending

/-- What the supply holds for a point is what was found for it. -/
theorem outcome (isPoint : point ∈ points) :
    ∃ own view, Outcome registry properties view point own (.ok (supply.find? point.index)) := by
  cases gathers with
  | all findings resolves =>
      have paired : List.Forall₂ (fun point finding => (point, finding) ∈ points.zip findings)
          points findings := List.forall₂_iff_zip.2 ⟨resolves.length_eq, id⟩
      obtain ⟨finding, _, isPair⟩ := exists_of_forall₂_left paired isPoint
      have found : (supplyOf points (findings.map (·.found)) .empty).find? point.index =
          finding.found := find?_supplyOf ascending (fun _ _ => rfl) isPair
      have outcome := (List.forall₂_iff_zip.1 resolves).2 isPair
      rw [← found] at outcome
      exact ⟨finding.asked, finding.view, outcome⟩

/-- Each value in the supply has the type that the slot of its point can hold. -/
theorem type_eq (isPoint : point ∈ points) (found : supply.find? point.index = some value) :
    value.type = point.dependency.slot.valueType := by
  obtain ⟨own, view, outcome⟩ := gathers.outcome ascending isPoint
  rw [found] at outcome
  exact outcome.type_eq

/-- For a point that is not optional there is a value in the supply. -/
theorem supplies (isPoint : point ∈ points) (required : point.dependency.isOptional = false) :
    ∃ value, supply.find? point.index = some value ∧
      value.type = point.dependency.slot.valueType := by
  obtain ⟨own, view, outcome⟩ := gathers.outcome ascending isPoint
  obtain ⟨value, found⟩ := outcome.isSome required
  exact ⟨value, found, gathers.type_eq ascending isPoint found⟩

end Gathers
end Container

/-! ## Calling methods -/

/-- A method takes arguments that have the types of its parameters. -/
theorem Method.arguments_ok {supply : Supply} {first : Nat} {parameters : List ValueType}
    (typed : ∀ index parameter, parameters[index]? = some parameter →
      ∃ value, supply.find? (first + index) = some value ∧ value.type = parameter) :
    ∃ values, Method.arguments supply first parameters = .ok values := by
  induction parameters generalizing first with
  | nil => exact ⟨[], rfl⟩
  | cons parameter parameters ih =>
      obtain ⟨value, found, type⟩ := typed 0 parameter rfl
      obtain ⟨values, taken⟩ := ih fun index other isOther => by
        obtain ⟨held, isHeld, typeHeld⟩ := typed (index + 1) other isOther
        refine ⟨held, ?_, typeHeld⟩
        rw [Nat.add_assoc, Nat.add_comm 1 index]
        exact isHeld
      refine ⟨value :: values, ?_⟩
      rw [Nat.add_zero] at found
      simp [arguments, found, type, taken, Except.map]

open Container in
/-- A method that does not make a bean of what was resolved for it has refused it. -/
theorem Definition.Typed.refused {definition : Definition} (typed : definition.Typed)
    {registry : Registry} {properties : PropertyStore} {sees : Asked → Heap → Prop} {asked : Asked}
    {supply : Supply} {method : Method} {inputs : List Input} {fault : ConstructionFault}
    (gathers : Gathers registry properties sees definition.recipe.points .empty asked (.ok supply))
    (recipe : definition.recipe = .calling method inputs)
    (failed : Recipe.run method inputs supply = .error fault) : ∃ text, fault = .refused text := by
  have suits := typed.inputs method inputs recipe
  have ascending := typed.numbered.points_ascending
  obtain ⟨values, taken⟩ : ∃ values,
      Method.arguments (Input.prepareAll 0 inputs supply) 0 method.parameters = .ok values := by
    refine Method.arguments_ok ?_
    intro index parameter isParameter
    obtain ⟨inside, isAt⟩ := List.getElem?_eq_some_iff.1 isParameter
    have insideInputs : index < inputs.length := by
      rw [suits.length_eq]
      exact inside
    have isInput : inputs[index]? = some inputs[index] := List.getElem?_eq_getElem insideInputs
    have suit : inputs[index].Suits parameter := by
      rw [← isAt]
      exact suits.get insideInputs inside
    have received := Input.find?_prepareAll 0 index inputs supply
    rw [isInput] at received
    simp only [received]
    generalize inputs[index] = input at isInput suit
    cases suit with
    | literal value => exact ⟨value, rfl, rfl⟩
    | lifted type => exact ⟨_, rfl, type.symm⟩
    | @required point type required =>
        have isArgument : definition.recipe.input? index = some (.injected point false) := by
          rw [recipe]
          exact isInput
        obtain ⟨value, found, valueType⟩ := gathers.supplies ascending
          (Recipe.mem_points_of_input? isArgument) required
        rw [typed.numbered.arguments index point false isArgument] at found
        rw [Nat.zero_add]
        exact ⟨value, found, valueType.trans type.symm⟩
  cases called : method.call values with
  | ok cells => simp [Recipe.run, taken, called, Except.mapError, bind, Except.bind, pure,
      Except.pure] at failed
  | error text =>
      refine ⟨text, ?_⟩
      simpa [Recipe.run, taken, called, Except.mapError, bind, Except.bind, eq_comm] using failed

end BeanContainer
