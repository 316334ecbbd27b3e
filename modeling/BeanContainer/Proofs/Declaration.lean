import BeanContainer.Proofs.Places
import BeanContainer.Proofs.Reference

/-!
# What is checked when a definition is declared

A declaration becomes a definition exactly if its scope has a known name, every tag of a
field is one that the field can take, and no more than one method passes the filters.  The
arguments are checked against the parameters of that method: the tag of each is one that it
can take, and only an argument that may be missing refers to a bean that may be.

The check goes as far as there are parameters.  If the filters count the arguments and a
method passes them, this is all arguments; arguments that no parameter takes are not looked
at, so their tags may be anything.
-/

namespace BeanContainer

/-! ## Tags of fields and arguments -/

namespace Slot

/-- What the slot receives by the reference, if it is one of its kind. -/
def dependency? : Slot → Reference → Option Dependency
  | .property type, .property reference => some (.property reference type)
  | .bean target, .bean reference => some (.bean reference target)
  | .property _, .bean _ => none
  | .bean _, .property _ => none

/-- The tag is the written form of a reference by which the slot receives the dependency. -/
def Declares (slot : Slot) (tag : String) (dependency : Dependency) : Prop :=
  ∃ reference : Reference, reference.IsLegible ∧ tag = reference.print ∧
    slot.dependency? reference = some dependency

end Slot

/-- A dependency is declared exactly by a tag that is its written form. -/
theorem Dependency.declare_eq_some_iff {slot : Slot} {name tag : String}
    {dependency : Dependency} :
    declare slot name tag = .ok (some dependency) ↔ slot.Declares tag dependency := by
  constructor
  · intro declared
    unfold declare at declared
    split at declared
    next => cases declared
    next => cases declared
    next reference read =>
      obtain ⟨legible, printed⟩ := Reference.printed_of_parse read
      cases slot with
      | property type =>
          cases declared
          exact ⟨_, legible, printed, rfl⟩
      | bean target => cases declared
    next reference read =>
      obtain ⟨legible, printed⟩ := Reference.printed_of_parse read
      cases slot with
      | property type => cases declared
      | bean target =>
          cases declared
          exact ⟨_, legible, printed, rfl⟩
  · rintro ⟨reference, legible, rfl, received⟩
    unfold declare
    rw [Reference.parse_print legible]
    cases reference with
    | property reference =>
        cases slot with
        | property type =>
            cases received
            rfl
        | bean target => cases received
    | bean reference =>
        cases slot with
        | property type => cases received
        | bean target =>
            cases received
            rfl

/-- Nothing is declared by the empty tag, and by no other. -/
theorem Dependency.declare_eq_none_iff {slot : Slot} {name tag : String} :
    declare slot name tag = .ok none ↔ tag = "" := by
  rw [← Reference.parse_eq_none_iff]
  unfold declare
  cases Reference.parse tag with
  | error defect => simp
  | ok found =>
      cases found with
      | none => simp
      | some reference => cases reference <;> cases slot <;> simp

/-- The field is not wired, or its tag is one that it can take. -/
def Field.IsSound (field : Field) : Prop :=
  field.tag = "" ∨ ∃ dependency, field.slot.Declares field.tag dependency

/-- The argument is a literal, or its tag is one that it can take; only an argument that may be
missing refers to a bean that may be. -/
def Argument.IsSound : Argument → Prop
  | .literal _ => True
  | .wired slot tag isLifted =>
      tag ≠ "" ∧ ∃ dependency, slot.Declares tag dependency ∧
        (dependency.isOptional = true → isLifted = true)

/-! ## What is accepted -/

/-- A check succeeds or not, whatever its error is called. -/
theorem exists_mapError_eq_ok_iff {ε ε' α : Type} {check : Except ε α} {rename : ε → ε'} :
    (∃ value, check.mapError rename = .ok value) ↔ ∃ value, check = .ok value := by
  cases check <;> simp [Except.mapError]

theorem ScopeChoice.exists_resolve_iff {choice : ScopeChoice} :
    (∃ scope, choice.resolve = .ok scope) ↔
      ∀ name, choice = .named name → name = "singleton" ∨ name = "prototype" := by
  cases choice with
  | given scope => simp [resolve]
  | named name =>
      rw [resolve, ← Scope.isReserved_iff]
      simp [Scope.isReserved]

/-- A slot is given a tag that is empty or one that it can take. -/
theorem Dependency.exists_declare_iff {slot : Slot} {name tag : String} :
    (∃ found, declare slot name tag = .ok found) ↔
      tag = "" ∨ ∃ dependency, slot.Declares tag dependency := by
  simp only [Option.exists, declare_eq_none_iff, declare_eq_some_iff]

namespace Field

theorem exists_point?_iff {field : Field} {owner : TypeName} {index : Nat} :
    (∃ point, field.point? owner index = .ok point) ↔ field.IsSound := by
  rw [IsSound, ← Dependency.exists_declare_iff, point?]
  cases Dependency.declare field.slot field.name field.tag <;> simp [Except.map]

/-- Fields are accepted if each of them is sound. -/
theorem exists_points_iff {owner : TypeName} {index : Nat} {fields : List Field} :
    (∃ points, Field.points owner index fields = .ok points) ↔
      ∀ field ∈ fields, field.IsSound := by
  induction fields generalizing index with
  | nil => simp [Field.points]
  | cons field fields ih =>
      unfold Field.points
      constructor
      · rintro ⟨points, declared⟩
        obtain ⟨point, own, declaredRest⟩ := bind_eq_ok_iff.1 declared
        obtain ⟨rest, others, _⟩ := bind_eq_ok_iff.1 declaredRest
        exact List.forall_mem_cons.2 ⟨exists_point?_iff.1 ⟨point, own⟩, ih.1 ⟨rest, others⟩⟩
      · intro sound
        obtain ⟨isSound, areSound⟩ := List.forall_mem_cons.1 sound
        obtain ⟨point, own⟩ := exists_point?_iff.2 isSound
        obtain ⟨rest, others⟩ := ih.2 areSound
        exact ⟨_, bind_eq_ok_iff.2 ⟨point, own, bind_eq_ok_iff.2 ⟨rest, others, rfl⟩⟩⟩

end Field

namespace Input

variable {owner : TypeName} {method : Method} {index : Nat}

/-- An argument is accepted for a parameter of its type if it is sound. -/
theorem exists_ofArgument_iff {argument : Argument} {parameter : ValueType} :
    (∃ input, ofArgument owner method index argument parameter = .ok input) ↔
      argument.type = parameter ∧ argument.IsSound := by
  unfold ofArgument
  by_cases fits : argument.type = parameter
  case neg =>
    rw [if_pos fits]
    simp [fits]
  case pos =>
    rw [if_neg (not_not.2 fits)]
    cases argument with
    | literal value => simp [Argument.IsSound, fits]
    | wired slot tag isLifted =>
        simp only [Argument.IsSound, fits, true_and,
          ← @Dependency.declare_eq_some_iff slot ("F" ++ toString index), Ne,
          ← @Dependency.declare_eq_none_iff slot ("F" ++ toString index)]
        cases Dependency.declare slot ("F" ++ toString index) tag with
        | error defect => simp
        | ok found =>
            cases found with
            | none => simp
            | some dependency =>
                cases optional : dependency.isOptional <;> cases isLifted <;> simp [optional]

/-- Arguments are accepted as far as there are parameters if each has the type of its parameter
and is sound. -/
theorem exists_ofArguments_iff {arguments : List Argument} {parameters : List ValueType} :
    (∃ inputs, ofArguments owner method index arguments parameters = .ok inputs) ↔
      ∀ pair ∈ arguments.zip parameters, pair.1.type = pair.2 ∧ pair.1.IsSound := by
  induction arguments generalizing index parameters with
  | nil => simp [ofArguments]
  | cons argument arguments ih =>
      cases parameters with
      | nil => simp [ofArguments]
      | cons parameter parameters =>
          unfold ofArguments
          rw [List.zip_cons_cons, List.forall_mem_cons]
          constructor
          · rintro ⟨inputs, declared⟩
            obtain ⟨input, own, declaredRest⟩ := bind_eq_ok_iff.1 declared
            obtain ⟨rest, others, _⟩ := bind_eq_ok_iff.1 declaredRest
            exact ⟨exists_ofArgument_iff.1 ⟨input, own⟩, ih.1 ⟨rest, others⟩⟩
          · rintro ⟨isSound, areSound⟩
            obtain ⟨input, own⟩ := exists_ofArgument_iff.2 isSound
            obtain ⟨rest, others⟩ := ih.2 areSound
            exact ⟨_, bind_eq_ok_iff.2 ⟨input, own, bind_eq_ok_iff.2 ⟨rest, others, rfl⟩⟩⟩

end Input

namespace Declaration

/-- The methods that pass all filters. -/
def candidates (declaration : Declaration) : List Method :=
  declaration.methods.filter fun method =>
    declaration.filters.all fun filter => filter declaration.type method declaration.arguments

/-- What is checked when the declaration is made into a definition. -/
structure IsChecked (declaration : Declaration) : Prop where
  scope : ∀ name, declaration.scope = .named name → name = "singleton" ∨ name = "prototype"
  fields : ∀ field ∈ declaration.fields, field.IsSound
  unambiguous : declaration.candidates.length ≤ 1
  arguments : ∀ method ∈ declaration.candidates,
    ∀ pair ∈ declaration.arguments.zip method.parameters,
      pair.1.type = pair.2 ∧ pair.1.IsSound

theorem exists_choose_iff {declaration : Declaration} :
    (∃ recipe, Recipe.choose declaration.type declaration.methods declaration.filters
        declaration.arguments = .ok recipe) ↔
      declaration.candidates.length ≤ 1 ∧ ∀ method ∈ declaration.candidates,
        ∀ pair ∈ declaration.arguments.zip method.parameters,
          pair.1.type = pair.2 ∧ pair.1.IsSound := by
  rw [Recipe.choose, ← candidates]
  cases declaration.candidates with
  | nil => simp
  | cons method others =>
      cases others with
      | nil =>
          simp only [exists_mapError_eq_ok_iff, List.length_singleton, Nat.le_refl, true_and,
            List.forall_mem_singleton, ← @Input.exists_ofArguments_iff declaration.type method 0]
          unfold Recipe.ofMethod
          cases Input.ofArguments declaration.type method 0 declaration.arguments
            method.parameters <;> simp [Except.map]
      | cons other others => simp

/-- A declaration is made into a definition exactly if it passes all checks. -/
theorem exists_define_iff {declaration : Declaration} :
    (∃ definition, declaration.define = .ok definition) ↔ declaration.IsChecked := by
  unfold define
  constructor
  · rintro ⟨definition, declared⟩
    obtain ⟨scope, isScope, declaredFields⟩ := bind_eq_ok_iff.1 declared
    obtain ⟨fields, areFields, declaredRecipe⟩ := bind_eq_ok_iff.1 declaredFields
    obtain ⟨recipe, chosen, _⟩ := bind_eq_ok_iff.1 declaredRecipe
    obtain ⟨unambiguous, arguments⟩ := exists_choose_iff.1 ⟨recipe, chosen⟩
    exact ⟨ScopeChoice.exists_resolve_iff.1 (exists_mapError_eq_ok_iff.1 ⟨scope, isScope⟩),
      Field.exists_points_iff.1 (exists_mapError_eq_ok_iff.1 ⟨fields, areFields⟩),
      unambiguous, arguments⟩
  · intro isChecked
    obtain ⟨scope, isScope⟩ :=
      exists_mapError_eq_ok_iff.2 (ScopeChoice.exists_resolve_iff.2 isChecked.scope)
    obtain ⟨fields, areFields⟩ :=
      exists_mapError_eq_ok_iff.2 (Field.exists_points_iff.2 isChecked.fields)
    obtain ⟨recipe, chosen⟩ := exists_choose_iff.2 ⟨isChecked.unambiguous, isChecked.arguments⟩
    exact ⟨_, bind_eq_ok_iff.2 ⟨scope, isScope, bind_eq_ok_iff.2 ⟨fields, areFields,
      bind_eq_ok_iff.2 ⟨recipe, chosen, rfl⟩⟩⟩⟩

/-- If the filters count the arguments, every argument has its parameter. -/
theorem IsChecked.arguments_sound {declaration : Declaration} (isChecked : declaration.IsChecked)
    (counted : MethodFilter.byArity ∈ declaration.filters) {method : Method}
    (candidate : method ∈ declaration.candidates) :
    ∀ argument ∈ declaration.arguments, argument.IsSound := by
  have passes := List.all_eq_true.1 (List.mem_filter.1 candidate).2 _ counted
  have sameLength : method.parameters.length = declaration.arguments.length := by
    simpa [MethodFilter.byArity] using passes
  intro argument member
  rw [← List.map_fst_zip (Nat.le_of_eq sameLength.symm)] at member
  obtain ⟨pair, isPair, rfl⟩ := List.mem_map.1 member
  exact (isChecked.arguments method candidate pair isPair).2

/-- A declaration is made into a definition exactly if its scope has a known name, all its
fields are sound, and at most one method passes the filters, to whose parameters the arguments
belong that stand at their positions; these are sound then.  So all arguments are, if the
filters count them and a method passes. -/
theorem define_checks (declaration : Declaration) :
    ((∃ definition, declaration.define = .ok definition) ↔ declaration.IsChecked) ∧
    (declaration.IsChecked → MethodFilter.byArity ∈ declaration.filters →
      declaration.candidates ≠ [] → ∀ argument ∈ declaration.arguments, argument.IsSound) := by
  refine ⟨exists_define_iff, ?_⟩
  intro isChecked counted someCandidate
  obtain ⟨method, candidate⟩ := List.exists_mem_of_ne_nil _ someCandidate
  exact isChecked.arguments_sound counted candidate

/-- An argument with a tag of no known form, and no method that it could be meant for. -/
def misspelt : Declaration where
  type := ⟨"Alpha"⟩
  arguments := [.wired (.property (.scalar .text)) "oops" false]

/-- Not every argument of a declaration that is accepted is sound: without a method none of them
is looked at. -/
theorem not_checks_every_argument :
    ¬ ∀ (declaration : Declaration) (definition : Definition),
      declaration.define = .ok definition →
        ∀ argument ∈ declaration.arguments, argument.IsSound := by
  intro always
  have isSound := always misspelt _ rfl _ (List.mem_singleton_self _)
  obtain ⟨_, dependency, declares, _⟩ := isSound
  have declared := (@Dependency.declare_eq_some_iff _ "F0" _ _).2 declares
  cases declared

end Declaration
end BeanContainer
