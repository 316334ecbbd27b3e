import BeanContainer.Proofs.Request.Typing

/-!
# Calling methods

A method that was accepted for some arguments is called with one argument for each of its
parameters: the literal, the resolved value, or the value that may be missing.  It is never
called with too few of them or with one of another type, so only the method itself can fail.

This takes as many arguments as there are parameters, which is what a filter may count.
Where no filter does and there are fewer, the first one that is not there is reported
instead.
-/

namespace BeanContainer

/-! ## What is resolved for arguments -/

namespace Argument

/-- What may be resolved for the argument: nothing matters for a literal, a value of its type
otherwise, and only an argument that may be missing takes nothing. -/
def Admits : Argument → Option Value → Prop
  | .literal _, _ => True
  | .wired slot _ false, resolved => ∃ value, resolved = some value ∧ value.type = slot.valueType
  | .wired slot _ true, resolved => ∀ value, resolved = some value → value.type = slot.valueType

/-- What the method receives for the argument. -/
inductive Passes : Argument → Option Value → Value → Prop
  | literal {value : Value} {resolved : Option Value} : Passes (.literal value) resolved value
  | resolved {slot : Slot} {tag : String} {value : Value} :
      Passes (.wired slot tag false) (some value) value
  | present {slot : Slot} {tag : String} {content : slot.valueType.Denote} :
      Passes (.wired slot tag true) (some ⟨slot.valueType, content⟩)
        ⟨.option slot.valueType, some content⟩
  | missing {slot : Slot} {tag : String} :
      Passes (.wired slot tag true) none ⟨.option slot.valueType, none⟩

end Argument

/-- The supply has for each argument what may be resolved for it. -/
def Supply.Answers (supply : Supply) (arguments : List Argument) : Prop :=
  ∀ (index : Nat) (argument : Argument), arguments[index]? = some argument →
    argument.Admits (supply.find? index)

/-! ## What the method receives -/

namespace Input

variable {owner : TypeName} {method : Method} {first : Nat}

/-- A declared argument passes a value of the type of its parameter. -/
theorem receives_of_ofArgument {argument : Argument} {parameter : ValueType} {input : Input}
    (declared : ofArgument owner method first argument parameter = .ok input)
    {resolved : Option Value} (admits : argument.Admits resolved) :
    ∃ value, input.receives resolved = some value ∧ argument.Passes resolved value ∧
      value.type = parameter := by
  unfold ofArgument at declared
  split at declared
  next => cases declared
  next sameType =>
    have sameType : argument.type = parameter := Decidable.not_not.1 sameType
    subst sameType
    cases argument with
    | literal value =>
        cases declared
        exact ⟨value, rfl, .literal, rfl⟩
    | wired slot tag isLifted =>
        dsimp only at declared
        split at declared
        next => cases declared
        next => cases declared
        next dependency isDeclared =>
          have slotOf := Dependency.slot_of_declare isDeclared
          split at declared
          next => cases declared
          next =>
            cases declared
            subst slotOf
            cases isLifted with
            | false =>
                obtain ⟨value, rfl, type⟩ := admits
                exact ⟨value, rfl, .resolved, type⟩
            | true =>
                cases resolved with
                | none => exact ⟨_, rfl, .missing, rfl⟩
                | some value =>
                    obtain ⟨type, content⟩ := value
                    obtain rfl : type = dependency.slot.valueType := admits _ rfl
                    have lifted : Value.lift dependency.slot.valueType
                        (some ⟨dependency.slot.valueType, content⟩) =
                          ⟨.option dependency.slot.valueType, some content⟩ := by
                      simp [Value.lift, Value.as?]
                    exact ⟨_, congrArg some lifted, .present, rfl⟩

/-- The input at a position is that of the argument there. -/
theorem getElem?_ofArguments {arguments : List Argument} {parameters : List ValueType}
    {inputs : List Input}
    (declared : ofArguments owner method first arguments parameters = .ok inputs)
    {index : Nat} {argument : Argument} {parameter : ValueType}
    (isArgument : arguments[index]? = some argument)
    (isParameter : parameters[index]? = some parameter) :
    ∃ input, inputs[index]? = some input ∧
      ofArgument owner method (first + index) argument parameter = .ok input := by
  induction arguments generalizing first index parameters inputs with
  | nil => simp at isArgument
  | cons head arguments ih =>
      cases parameters with
      | nil => simp at isParameter
      | cons type parameters =>
          unfold ofArguments at declared
          obtain ⟨input, own, declaredRest⟩ := bind_eq_ok_iff.1 declared
          obtain ⟨rest, others, equal⟩ := bind_eq_ok_iff.1 declaredRest
          cases equal
          cases index with
          | zero =>
              cases isArgument
              cases isParameter
              exact ⟨input, rfl, own⟩
          | succ index =>
              obtain ⟨found, isInput, isOwn⟩ := ih others isArgument isParameter
              rw [Nat.add_assoc, Nat.add_comm 1 index] at isOwn
              exact ⟨found, isInput, isOwn⟩

/-- There are no more inputs than arguments. -/
theorem length_ofArguments_le_arguments {arguments : List Argument} {parameters : List ValueType}
    {inputs : List Input}
    (declared : ofArguments owner method first arguments parameters = .ok inputs) :
    inputs.length ≤ arguments.length := by
  induction arguments generalizing first parameters inputs with
  | nil =>
      cases declared
      exact Nat.le_refl 0
  | cons argument arguments ih =>
      cases parameters with
      | nil =>
          cases declared
          exact Nat.zero_le _
      | cons parameter parameters =>
          unfold ofArguments at declared
          obtain ⟨input, _, declaredRest⟩ := bind_eq_ok_iff.1 declared
          obtain ⟨rest, others, equal⟩ := bind_eq_ok_iff.1 declaredRest
          cases equal
          exact Nat.succ_le_succ (ih others)

/-- What is prepared for a position of an argument and a parameter. -/
theorem find?_prepareAll_ofArguments {arguments : List Argument} {parameters : List ValueType}
    {inputs : List Input} (declared : ofArguments owner method 0 arguments parameters = .ok inputs)
    {supply : Supply} (answers : supply.Answers (arguments.take parameters.length))
    {index : Nat} {argument : Argument} {parameter : ValueType}
    (isArgument : arguments[index]? = some argument)
    (isParameter : parameters[index]? = some parameter) :
    ∃ value, (prepareAll 0 inputs supply).find? (0 + index) = some value ∧
      argument.Passes (supply.find? index) value ∧ value.type = parameter := by
  obtain ⟨input, isInput, own⟩ := getElem?_ofArguments declared isArgument isParameter
  have inside := (List.getElem?_eq_some_iff.1 isParameter).1
  have isTaken : (arguments.take parameters.length)[index]? = some argument := by
    rw [List.getElem?_take_of_lt inside]
    exact isArgument
  have prepared := find?_prepareAll 0 index inputs supply
  rw [isInput] at prepared
  rw [prepared, Nat.zero_add]
  exact receives_of_ofArgument own (answers index argument isTaken)

end Input

namespace Method

/-- The first argument that is not there is reported, if those before it are of the types of
their parameters. -/
theorem arguments_missing {supply : Supply} {first count : Nat} {parameters : List ValueType}
    (short : count < parameters.length) (absent : supply.find? (first + count) = none)
    (typed : ∀ (index : Nat) (parameter : ValueType), index < count →
      parameters[index]? = some parameter →
      ∃ value, supply.find? (first + index) = some value ∧ value.type = parameter) :
    arguments supply first parameters = .error (.missingArgument (first + count)) := by
  induction parameters generalizing first count with
  | nil => simp at short
  | cons parameter parameters ih =>
      cases count with
      | zero =>
          rw [Nat.add_zero] at absent ⊢
          simp only [arguments, absent]
      | succ count =>
          obtain ⟨value, found, type⟩ := typed 0 parameter (Nat.succ_pos count) rfl
          have shift : ∀ index, first + 1 + index = first + (index + 1) := by omega
          rw [← shift count] at absent
          have fails := ih (Nat.lt_of_succ_lt_succ short) absent fun index other before isOther =>
            shift index ▸ typed (index + 1) other (Nat.succ_lt_succ before) isOther
          rw [shift count] at fails
          rw [Nat.add_zero] at found
          simp only [arguments, found, type, if_true, fails, Except.map]

/-- A method receives one argument for each parameter, of the type of the parameter. -/
theorem map_type_of_arguments {supply : Supply} {first : Nat} {parameters : List ValueType}
    {values : List Value} (taken : arguments supply first parameters = .ok values) :
    values.map (·.type) = parameters := by
  induction parameters generalizing first values with
  | nil =>
      cases taken
      rfl
  | cons parameter parameters ih =>
      unfold arguments at taken
      split at taken
      next => cases taken
      next =>
        split at taken
        next type =>
          cases rest : arguments supply (first + 1) parameters with
          | error fault =>
              rw [rest] at taken
              cases taken
          | ok others =>
              rw [rest] at taken
              cases taken
              rw [List.map_cons, type, ih rest]
        next => cases taken

end Method

/-- The method makes a bean of the arguments, or it refuses them. -/
def HeapM.call (type : TypeName) (name : String) (method : Method) (arguments : List Value) :
    HeapM Bean :=
  match method.call arguments with
  | .ok cells => create type arguments cells
  | .error text => throw (.construction name (.refused text))

theorem HeapM.make_of_arguments {type : TypeName} {name : String} {method : Method}
    {inputs : List Input} {supply : Supply} {values : List Value}
    (taken : Method.arguments (Input.prepareAll 0 inputs supply) 0 method.parameters =
      .ok values) :
    make type name method inputs supply = call type name method values := by
  unfold make call Recipe.run
  rw [taken]
  cases called : method.call values <;>
    simp [called, bind, Except.bind, pure, Except.pure, Except.mapError]

theorem HeapM.make_of_fault {type : TypeName} {name : String} {method : Method}
    {inputs : List Input} {supply : Supply} {fault : ConstructionFault}
    (fails : Method.arguments (Input.prepareAll 0 inputs supply) 0 method.parameters =
      .error fault) :
    make type name method inputs supply = throw (.construction name fault) := by
  unfold make Recipe.run
  rw [fails]
  rfl

/-! ## Accepted methods -/

section Accepted

variable {owner : TypeName} {method : Method} {arguments : List Argument} {inputs : List Input}
  {supply : Supply}
  (declared : Input.ofArguments owner method 0 arguments method.parameters = .ok inputs)
  (answers : supply.Answers (arguments.take method.parameters.length))
include declared answers

/-- With an argument for each parameter the method receives one value for each. -/
theorem Method.arguments_of_answers (enough : method.parameters.length ≤ arguments.length) :
    ∃ values, Method.arguments (Input.prepareAll 0 inputs supply) 0 method.parameters =
        .ok values ∧ values.map (·.type) = method.parameters ∧
      ∀ (index : Nat) (argument : Argument) (value : Value), arguments[index]? = some argument →
        values[index]? = some value → argument.Passes (supply.find? index) value := by
  obtain ⟨values, taken⟩ : ∃ values,
      Method.arguments (Input.prepareAll 0 inputs supply) 0 method.parameters = .ok values := by
    apply Method.arguments_ok
    intro index parameter isParameter
    have inside := (List.getElem?_eq_some_iff.1 isParameter).1
    have isArgument := List.getElem?_eq_getElem (Nat.lt_of_lt_of_le inside enough)
    obtain ⟨value, found, _, type⟩ :=
      Input.find?_prepareAll_ofArguments declared answers isArgument isParameter
    exact ⟨value, found, type⟩
  refine ⟨values, taken, Method.map_type_of_arguments taken, ?_⟩
  intro index argument value isArgument isValue
  have inside : index < method.parameters.length :=
    Method.length_of_arguments taken ▸ (List.getElem?_eq_some_iff.1 isValue).1
  obtain ⟨passed, found, passes, _⟩ := Input.find?_prepareAll_ofArguments declared answers
    isArgument (List.getElem?_eq_getElem inside)
  rw [Method.find?_of_arguments taken isValue] at found
  cases found
  exact passes

/-- With fewer arguments the first one that is not there is reported. -/
theorem Method.arguments_of_fewer (fewer : arguments.length < method.parameters.length)
    (nothing : supply.find? arguments.length = none) :
    Method.arguments (Input.prepareAll 0 inputs supply) 0 method.parameters =
      .error (.missingArgument arguments.length) := by
  have absent : (Input.prepareAll 0 inputs supply).find? (0 + arguments.length) = none := by
    rw [Input.find?_prepareAll,
      List.getElem?_eq_none (Input.length_ofArguments_le_arguments declared), Nat.zero_add]
    exact nothing
  have missing := Method.arguments_missing fewer absent fun index parameter before isParameter => by
    obtain ⟨value, found, _, type⟩ := Input.find?_prepareAll_ofArguments declared answers
      (List.getElem?_eq_getElem before) isParameter
    exact ⟨value, found, type⟩
  rw [Nat.zero_add] at missing
  exact missing

end Accepted

namespace Container

open Running

/-- A method that was accepted for its arguments is called with one argument for each parameter,
which is what the argument declared at its position passes; so nothing but the method itself can
fail.  Only if there are fewer arguments than parameters it is not called, and the first missing
argument is reported. -/
theorem construct_calls_method {owner : TypeName} {method : Method} {arguments : List Argument}
    {definition : Definition} {resolve : List InjectionPoint → ContainerM Supply}
    {start middle : Container} {supply : Supply} (name : String)
    (accepted : Recipe.ofMethod owner method arguments = .ok definition.recipe)
    (resolved : resolve definition.recipe.points start = (.ok supply, middle))
    (answers : supply.Answers (arguments.take method.parameters.length)) :
    (method.parameters.length ≤ arguments.length →
      ∃ values : List Value, values.map (·.type) = method.parameters ∧
        (∀ (index : Nat) (argument : Argument) (value : Value),
          arguments[index]? = some argument → values[index]? = some value →
            argument.Passes (supply.find? index) value) ∧
        construct resolve definition name start =
          ContainerM.onHeap (HeapM.call definition.type name method values) middle) ∧
    (arguments.length < method.parameters.length → supply.find? arguments.length = none →
      construct resolve definition name start =
        (.error (.construction name (.missingArgument arguments.length)), middle)) := by
  obtain ⟨inputs, recipe, declared⟩ : ∃ inputs, definition.recipe = .calling method inputs ∧
      Input.ofArguments owner method 0 arguments method.parameters = .ok inputs := by
    unfold Recipe.ofMethod at accepted
    cases declared : Input.ofArguments owner method 0 arguments method.parameters with
    | error defect =>
        rw [declared] at accepted
        cases accepted
    | ok inputs =>
        rw [declared] at accepted
        exact ⟨inputs, (Except.ok.inj accepted).symm, rfl⟩
  have constructed : construct resolve definition name start =
      ContainerM.onHeap (HeapM.make definition.type name method inputs supply) middle := by
    rw [recipe] at resolved
    unfold construct
    simp only [recipe]
    exact bind_apply_ok resolved
  constructor
  · intro enough
    obtain ⟨values, taken, types, passes⟩ :=
      Method.arguments_of_answers declared answers enough
    refine ⟨values, types, passes, ?_⟩
    rw [constructed, HeapM.make_of_arguments taken]
  · intro fewer nothing
    rw [constructed, HeapM.make_of_fault (Method.arguments_of_fewer declared answers fewer nothing)]
    rfl

/-- A lamp is a record of a literal label, a size from the properties, and a shade and a stand that
may be missing; one more argument is declared than that. -/
def lampMethod : Method where
  name := "new_lamp"
  parameters :=
    [.scalar .text, .scalar (.integer .i32), .option (.bean ⟨"Shade"⟩), .option (.bean ⟨"Stand"⟩)]
  call values := .ok (values.map fun value => (value.type.name, value))

def lampArguments : List Argument :=
  [.literal (.ofText "reading"),
    .wired (.property (.scalar (.integer .i32))) "value:$\x7bsize\x7d" false,
    .wired (.bean ⟨⟨"Shade"⟩, false⟩) "autowire:shade" true,
    .wired (.bean ⟨⟨"Stand"⟩, false⟩) "autowire:stand,optional" true, .literal (.ofBool true)]

/-- A size and a shade, but no stand. -/
def lampSupply : Supply :=
  .ofList [(1, ⟨.scalar (.integer .i32), ⟨4, by decide⟩⟩),
    (2, .ofBean ⟨"Shade"⟩ (.plain ⟨0, ⟨"Shade"⟩, "Shade#1", {}⟩))]

/-- The definition of the beans of one name that are made by the recipe. -/
def madeBy (recipe : Recipe) : Definition where
  name := "lamp"
  type := ⟨"Lamp"⟩
  scope := .singleton
  isLazy := false
  isPrimary := false
  fields := []
  recipe
  casts := Casts.identity ⟨"Lamp"⟩

theorem lampSupply_answers :
    lampSupply.Answers (lampArguments.take lampMethod.parameters.length) := by
  intro index argument isArgument
  match index with
  | 0 =>
      cases isArgument
      trivial
  | 1 =>
      cases isArgument
      exact ⟨_, rfl, rfl⟩
  | 2 =>
      cases isArgument
      intro value found
      cases found
      rfl
  | 3 =>
      cases isArgument
      intro value found
      cases found
  | _ + 4 => cases isArgument

theorem lampMethod_called :
    ∃ recipe, Recipe.ofMethod ⟨"Lamp"⟩ lampMethod lampArguments = .ok recipe ∧
      lampSupply.Answers (lampArguments.take lampMethod.parameters.length) ∧
      ∃ values : List Value, values.map (·.type) = lampMethod.parameters ∧
        construct (fun _ => pure lampSupply) (madeBy recipe) "lamp" {} =
          ContainerM.onHeap (HeapM.call ⟨"Lamp"⟩ "lamp" lampMethod values) {} := by
  have isOk : (Recipe.ofMethod ⟨"Lamp"⟩ lampMethod lampArguments).toOption.isSome = true := by
    decide +kernel
  cases accepted : Recipe.ofMethod ⟨"Lamp"⟩ lampMethod lampArguments with
  | error defect =>
      rw [accepted] at isOk
      cases isOk
  | ok recipe =>
      have resolved : (pure lampSupply : ContainerM Supply) {} = (.ok lampSupply, {}) := rfl
      obtain ⟨values, types, _, called⟩ := (@construct_calls_method _ _ _ (madeBy recipe)
        (fun _ => pure lampSupply) _ _ _ "lamp" accepted resolved lampSupply_answers).1 (by decide)
      exact ⟨recipe, rfl, lampSupply_answers, values, types, called⟩

/-- A method with one parameter. -/
def lonelyMethod : Method where
  name := "new_lamp"
  parameters := [.scalar (.integer .i32)]
  call _ := .ok []

/-- Not every method that was accepted is called: without arguments it may have parameters. -/
theorem not_calls_every_method :
    ¬ ∀ (owner : TypeName) (method : Method) (arguments : List Argument) (recipe : Recipe)
        (supply : Supply) (start : Container), Recipe.ofMethod owner method arguments = .ok recipe →
      supply.Answers (arguments.take method.parameters.length) →
        ∃ values : List Value, values.map (·.type) = method.parameters ∧
          construct (fun _ => pure supply) (madeBy recipe) "lamp" start =
            ContainerM.onHeap (HeapM.call ⟨"Lamp"⟩ "lamp" method values) start := by
  intro always
  obtain ⟨values, _, called⟩ :=
    always ⟨"Lamp"⟩ lonelyMethod [] _ .empty {} rfl (by simp [Supply.Answers])
  have fails := congrArg Prod.fst called
  cases fails

end Container
end BeanContainer
