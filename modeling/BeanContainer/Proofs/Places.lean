import BeanContainer.Heap
import BeanContainer.Proofs.Value

/-!
# What beans hold

A bean holds the arguments that its constructor received and the values in its cells.
Some of them stand in the definition itself, others were put into a cell by the
constructor; all others were resolved for an injection point at the same place.
-/

namespace BeanContainer

/-- A place where a bean can hold something. -/
inductive Place where
  /-- An argument of its constructor, by its position. -/
  | argument (index : Nat)
  | cell (name : String)

/-- The field of the point is kept in the cell. -/
def InjectionPoint.IsOn (point : InjectionPoint) (cell : String) : Prop :=
  ∃ owner, point.cell = some ⟨owner, cell⟩

namespace Recipe

/-- The input of the argument at the position. -/
def input? : Recipe → Nat → Option Input
  | .blank, _ => none
  | .calling _ inputs, index => inputs[index]?

/-- The constructor itself fills the cell when it is called with the arguments. -/
def Presets (arguments : List Value) (cell : String) : Recipe → Prop
  | .blank => False
  | .calling method _ => ∃ cells, method.call arguments = .ok cells ∧ cell ∈ cells.map (·.1)

/-- The constructor receives the arguments for the supply, and fills the cells. -/
def Yields (supply : Supply) (arguments : List Value) (cells : List (String × Value)) :
    Recipe → Prop
  | .blank => arguments = [] ∧ cells = []
  | .calling method inputs => Recipe.run method inputs supply = .ok (arguments, cells)

end Recipe

namespace Definition

/-- The point is injected at the place. -/
def Injects (definition : Definition) (point : InjectionPoint) : Place → Prop
  | .argument index => ∃ isLifted, definition.recipe.input? index = some (.injected point isLifted)
  | .cell name => point ∈ definition.fields ∧ point.IsOn name

/-- The definition itself gives the bean, as part of a literal argument at the place. -/
def Gives (definition : Definition) (bean : Bean) : Place → Prop
  | .argument index =>
      ∃ value, definition.recipe.input? index = some (.literal value) ∧ bean ∈ value.beans
  | .cell _ => False

/-- A bean of the definition keeps the value as an argument of its constructor or in a cell
that its constructor left to be wired. -/
inductive Keeps (definition : Definition) (contents : Contents) (value : Value) : Place → Prop
  | argument {index : Nat} (received : contents.arguments[index]? = some value) :
      Keeps definition contents value (.argument index)
  | cell {name : String} (left : ¬ definition.recipe.Presets contents.arguments name)
      (filled : contents.cells.find? name = some value) :
      Keeps definition contents value (.cell name)

/-- A bean of the definition holds the other bean in an argument of its constructor or in
a cell that its constructor left to be wired. -/
inductive Holds (definition : Definition) (contents : Contents) (bean : Bean) : Place → Prop
  | argument {index : Nat} {value : Value} (received : contents.arguments[index]? = some value)
      (inside : bean ∈ value.beans) : Holds definition contents bean (.argument index)
  | cell {name : String} {value : Value}
      (left : ¬ definition.recipe.Presets contents.arguments name)
      (filled : contents.cells.find? name = some value) (inside : bean ∈ value.beans) :
      Holds definition contents bean (.cell name)

/-- The value comes to stand at the place: as a literal argument, or made of what was offered
to the point that is injected there.  An argument that may be missing is wrapped first. -/
inductive Receives (definition : Definition) (offered : InjectionPoint → Value → Prop) :
    Value → Place → Prop
  | literal {index : Nat} {value : Value}
      (isInput : definition.recipe.input? index = some (.literal value)) :
      Receives definition offered value (.argument index)
  | argument {index : Nat} {point : InjectionPoint} {value : Value}
      (isInput : definition.recipe.input? index = some (.injected point false))
      (offers : offered point value) : Receives definition offered value (.argument index)
  | lifted {index : Nat} {point : InjectionPoint} {found : Option Value}
      (isInput : definition.recipe.input? index = some (.injected point true))
      (offers : ∀ value, found = some value → offered point value) :
      Receives definition offered (Value.lift point.dependency.slot.valueType found)
        (.argument index)
  | field {name : String} {point : InjectionPoint} {value : Value}
      (isField : point ∈ definition.fields) (isOn : point.IsOn name)
      (offers : offered point value) : Receives definition offered value (.cell name)

/-- Every value that is kept came from the definition or was offered to the point at its
place. -/
def Accounts (definition : Definition) (contents : Contents)
    (offered : InjectionPoint → Value → Prop) : Prop :=
  ∀ value place, definition.Keeps contents value place → definition.Receives offered value place

/-- The points of fields have positions of their own, and the point of an argument is
numbered by its position. -/
structure Numbered (definition : Definition) : Prop where
  fields : ∀ point ∈ definition.fields, ∀ other ∈ definition.fields,
    point.index = other.index → point = other
  arguments : ∀ index point isLifted,
    definition.recipe.input? index = some (.injected point isLifted) → point.index = index

end Definition

/-! ## Declared definitions are numbered -/

/-- A sequence of two checks succeeds with the results of both. -/
theorem bind_eq_ok_iff {ε α β : Type} {first : Except ε α} {next : α → Except ε β} {result : β} :
    (first >>= next) = .ok result ↔ ∃ value, first = .ok value ∧ next value = .ok result := by
  cases first with
  | error error => simp [bind, Except.bind]
  | ok value => simp [bind, Except.bind]

namespace Field

/-- The point of a field is numbered by the position of the field. -/
theorem index_of_point? {field : Field} {owner : TypeName} {index : Nat}
    {found : Option InjectionPoint} (declared : field.point? owner index = .ok found)
    {point : InjectionPoint} (isFound : point ∈ found.toList) : point.index = index := by
  unfold Field.point? Except.map at declared
  split at declared
  · cases declared
  · cases declared
    simp only [Option.mem_toList, Option.map_eq_some_iff] at isFound
    obtain ⟨dependency, _, rfl⟩ := isFound
    rfl

/-- Points are numbered from the given position on, in ascending order. -/
theorem points_numbered {owner : TypeName} {fields : List Field} {first : Nat}
    {points : List InjectionPoint} (declared : Field.points owner first fields = .ok points) :
    (∀ point ∈ points, first ≤ point.index) ∧
      points.Pairwise fun point other => point.index < other.index := by
  induction fields generalizing first points with
  | nil =>
      cases declared
      simp
  | cons field fields ih =>
      unfold Field.points at declared
      obtain ⟨found, own, declaredRest⟩ := bind_eq_ok_iff.1 declared
      obtain ⟨rest, others, equal⟩ := bind_eq_ok_iff.1 declaredRest
      cases equal
      obtain ⟨after, ascending⟩ := ih others
      constructor
      · intro point member
        rcases List.mem_append.1 member with head | tail
        · exact Nat.le_of_eq (index_of_point? own head).symm
        · exact Nat.le_of_succ_le (after point tail)
      · refine List.pairwise_append.2 ⟨?_, ascending, ?_⟩
        · cases found with
          | none => exact .nil
          | some point => exact List.pairwise_singleton _ point
        · intro point head other tail
          rw [index_of_point? own head]
          exact after other tail

/-- In an ascending list each number belongs to one point. -/
theorem eq_of_ascending {points : List InjectionPoint}
    (ascending : points.Pairwise fun point other => point.index < other.index)
    {point other : InjectionPoint} (member : point ∈ points) (otherMember : other ∈ points)
    (same : point.index = other.index) : point = other := by
  obtain ⟨first, inside, rfl⟩ := List.getElem_of_mem member
  obtain ⟨second, otherInside, rfl⟩ := List.getElem_of_mem otherMember
  rw [List.pairwise_iff_getElem] at ascending
  rcases Nat.lt_trichotomy first second with before | equal | after
  · have less := ascending first second inside otherInside before
    omega
  · subst equal
    rfl
  · have less := ascending second first otherInside inside after
    omega

end Field

namespace Input

/-- The point of an argument is numbered by the position of the argument. -/
theorem index_of_ofArgument {owner : TypeName} {method : Method} {index : Nat}
    {argument : Argument} {parameter : ValueType} {point : InjectionPoint} {isLifted : Bool}
    (declared : ofArgument owner method index argument parameter = .ok (.injected point isLifted)) :
    point.index = index := by
  unfold ofArgument at declared
  split at declared
  · cases declared
  · split at declared
    · cases declared
    · simp only [] at declared
      split at declared
      · cases declared
      · cases declared
      · split at declared
        · cases declared
        · cases declared
          rfl

theorem index_of_ofArguments {owner : TypeName} {method : Method} {first index : Nat}
    {arguments : List Argument} {parameters : List ValueType} {inputs : List Input}
    (declared : ofArguments owner method first arguments parameters = .ok inputs)
    {point : InjectionPoint} {isLifted : Bool}
    (found : inputs[index]? = some (.injected point isLifted)) : point.index = first + index := by
  induction arguments generalizing first index parameters inputs with
  | nil =>
      simp only [ofArguments, Except.ok.injEq] at declared
      subst declared
      simp at found
  | cons argument arguments ih =>
      cases parameters with
      | nil =>
          simp only [ofArguments, Except.ok.injEq] at declared
          subst declared
          simp at found
      | cons parameter parameters =>
          unfold ofArguments at declared
          obtain ⟨input, own, declaredRest⟩ := bind_eq_ok_iff.1 declared
          obtain ⟨rest, others, equal⟩ := bind_eq_ok_iff.1 declaredRest
          cases equal
          cases index with
          | zero =>
              simp only [List.getElem?_cons_zero, Option.some.injEq] at found
              subst found
              exact index_of_ofArgument own
          | succ index =>
              rw [List.getElem?_cons_succ] at found
              have numbered := ih others found
              omega

/-- There are no more inputs than parameters. -/
theorem length_ofArguments_le {owner : TypeName} {method : Method} {first : Nat}
    {arguments : List Argument} {parameters : List ValueType} {inputs : List Input}
    (declared : ofArguments owner method first arguments parameters = .ok inputs) :
    inputs.length ≤ parameters.length := by
  induction arguments generalizing first parameters inputs with
  | nil =>
      simp only [ofArguments, Except.ok.injEq] at declared
      simp [← declared]
  | cons argument arguments ih =>
      cases parameters with
      | nil =>
          simp only [ofArguments, Except.ok.injEq] at declared
          simp [← declared]
      | cons parameter parameters =>
          unfold ofArguments at declared
          obtain ⟨input, _, declaredRest⟩ := bind_eq_ok_iff.1 declared
          obtain ⟨rest, others, equal⟩ := bind_eq_ok_iff.1 declaredRest
          cases equal
          simpa using ih others

end Input

/-- A method that is chosen is one of the declared ones and receives the declared arguments as
its inputs. -/
theorem Recipe.method_of_choose {owner : TypeName} {methods : List Method}
    {filters : List MethodFilter} {arguments : List Argument} {method : Method}
    {inputs : List Input}
    (chosen : Recipe.choose owner methods filters arguments = .ok (.calling method inputs)) :
    method ∈ methods ∧
      Input.ofArguments owner method 0 arguments method.parameters = .ok inputs := by
  unfold Recipe.choose at chosen
  split at chosen
  · cases chosen
  next other only =>
    have member : other ∈ methods :=
      (List.mem_filter.1 (only.symm ▸ List.mem_singleton_self other)).1
    cases made : Recipe.ofMethod owner other arguments with
    | error defect =>
        rw [made] at chosen
        cases chosen
    | ok calling =>
        rw [made] at chosen
        cases chosen
        unfold Recipe.ofMethod Except.map at made
        split at made
        · cases made
        next inputs declared =>
          cases made
          exact ⟨member, declared⟩
  · cases chosen

/-- The recipe that is chosen for arguments numbers their points by position. -/
theorem Recipe.index_of_choose {owner : TypeName} {methods : List Method}
    {filters : List MethodFilter} {arguments : List Argument} {recipe : Recipe}
    (chosen : Recipe.choose owner methods filters arguments = .ok recipe) {index : Nat}
    {point : InjectionPoint} {isLifted : Bool}
    (found : recipe.input? index = some (.injected point isLifted)) : point.index = index := by
  cases recipe with
  | blank => cases found
  | calling method inputs =>
      have numbered := Input.index_of_ofArguments (method_of_choose chosen).2 found
      omega

/-- The fields and the recipe of a declared definition. -/
theorem Declaration.parts_of_define {declaration : Declaration} {definition : Definition}
    (declared : declaration.define = .ok definition) :
    (Field.points declaration.type 0 declaration.fields).mapError BeanError.invalid =
        .ok definition.fields ∧
      Recipe.choose declaration.type declaration.methods declaration.filters
        declaration.arguments = .ok definition.recipe := by
  unfold Declaration.define at declared
  obtain ⟨scope, _, declaredFields⟩ := bind_eq_ok_iff.1 declared
  obtain ⟨fields, hasFields, declaredRecipe⟩ := bind_eq_ok_iff.1 declaredFields
  obtain ⟨recipe, chosen, equal⟩ := bind_eq_ok_iff.1 declaredRecipe
  cases equal
  exact ⟨hasFields, chosen⟩

/-- The points of a declared definition are those of the declared fields. -/
theorem Declaration.points_of_define {declaration : Declaration} {definition : Definition}
    (declared : declaration.define = .ok definition) :
    Field.points declaration.type 0 declaration.fields = .ok definition.fields := by
  have hasFields := (parts_of_define declared).1
  cases pointed : Field.points declaration.type 0 declaration.fields with
  | error defect =>
      rw [pointed] at hasFields
      cases hasFields
  | ok points =>
      rw [pointed] at hasFields
      exact congrArg Except.ok (Except.ok.inj hasFields)

/-- The beans of a declared definition are of the declared type, and can be cast from it. -/
theorem Declaration.type_of_define {declaration : Declaration} {definition : Definition}
    (declared : declaration.define = .ok definition) :
    definition.type = declaration.type ∧ definition.casts.source = definition.type := by
  have kept : ∀ (targets : List TypeName) (casts : Casts),
      (targets.foldl Casts.add casts).source = casts.source := by
    intro targets
    induction targets with
    | nil => exact fun _ => rfl
    | cons target targets ih =>
        intro casts
        rw [List.foldl_cons, ih, Casts.add]
        split <;> rfl
  unfold Declaration.define at declared
  obtain ⟨scope, _, declaredFields⟩ := bind_eq_ok_iff.1 declared
  obtain ⟨fields, _, declaredRecipe⟩ := bind_eq_ok_iff.1 declaredFields
  obtain ⟨recipe, _, equal⟩ := bind_eq_ok_iff.1 declaredRecipe
  cases equal
  exact ⟨rfl, kept _ _⟩

/-- Every declared definition is numbered. -/
theorem Declaration.numbered_of_define {declaration : Declaration} {definition : Definition}
    (declared : declaration.define = .ok definition) : definition.Numbered := by
  constructor
  · intro point member other otherMember same
    have ascending := (Field.points_numbered (points_of_define declared)).2
    exact Field.eq_of_ascending ascending member otherMember same
  · intro index point isLifted found
    exact Recipe.index_of_choose (parts_of_define declared).2 found

/-- Without a constructor beans are made empty. -/
theorem Declaration.recipe_of_define {declaration : Declaration} {definition : Definition}
    (declared : declaration.define = .ok definition) (without : declaration.methods = []) :
    definition.recipe = .blank := by
  have blank := (parts_of_define declared).2
  simp only [without, Recipe.choose, List.filter_nil, Except.ok.injEq] at blank
  exact blank.symm

/-- Without a constructor there is no literal argument. -/
theorem Declaration.not_gives_of_define {declaration : Declaration} {definition : Definition}
    (declared : declaration.define = .ok definition) (without : declaration.methods = [])
    (bean : Bean) (place : Place) : ¬ definition.Gives bean place := by
  intro given
  cases place with
  | cell name => exact given
  | argument index =>
      obtain ⟨value, isInput, _⟩ := given
      rw [recipe_of_define declared without] at isInput
      cases isInput

/-! ## What constructors receive -/

namespace Input

/-- What the input passes on, given what was resolved for it. -/
def receives (input : Input) (resolved : Option Value) : Option Value :=
  match input with
  | .literal value => some value
  | .injected point true => some (Value.lift point.dependency.slot.valueType resolved)
  | .injected _ false => resolved

theorem find?_prepare (input : Input) (index other : Nat) (supply : Supply) :
    (input.prepare index supply).find? other =
      if other = index then input.receives (supply.find? index) else supply.find? other := by
  unfold prepare receives
  by_cases same : other = index
  · subst same
    split <;> simp
  · simp only [same, if_false]
    split
    · exact Table.find?_insert_of_ne _ _ same
    · exact Table.find?_insert_of_ne _ _ same
    · rfl

/-- Preparing inputs leaves the positions before them alone. -/
theorem find?_prepareAll_of_lt {first index : Nat} (before : index < first) (inputs : List Input)
    (supply : Supply) : (prepareAll first inputs supply).find? index = supply.find? index := by
  induction inputs generalizing first supply with
  | nil => rfl
  | cons input inputs ih =>
      unfold prepareAll
      rw [ih (Nat.lt_succ_of_lt before), find?_prepare, if_neg (Nat.ne_of_lt before)]

/-- What stands at a position once all inputs are prepared. -/
theorem find?_prepareAll (first index : Nat) (inputs : List Input) (supply : Supply) :
    (prepareAll first inputs supply).find? (first + index) =
      match inputs[index]? with
      | some input => input.receives (supply.find? (first + index))
      | none => supply.find? (first + index) := by
  induction inputs generalizing first index supply with
  | nil => rfl
  | cons input inputs ih =>
      unfold prepareAll
      cases index with
      | zero =>
          rw [find?_prepareAll_of_lt (by omega), find?_prepare, if_pos (by omega)]
          rfl
      | succ index =>
          have shifted := ih (first + 1) index (input.prepare first supply)
          rw [find?_prepare, if_neg (by omega)] at shifted
          rw [List.getElem?_cons_succ, Nat.add_comm index 1, ← Nat.add_assoc]
          exact shifted

end Input

/-- The argument at a position is what the supply holds there. -/
theorem Method.find?_of_arguments {supply : Supply} {first index : Nat}
    {parameters : List ValueType} {values : List Value} {value : Value}
    (taken : Method.arguments supply first parameters = .ok values)
    (found : values[index]? = some value) : supply.find? (first + index) = some value := by
  induction parameters generalizing first index values with
  | nil =>
      cases taken
      simp at found
  | cons parameter parameters ih =>
      unfold Method.arguments at taken
      split at taken
      · cases taken
      next head isHead =>
        split at taken
        · cases rest : Method.arguments supply (first + 1) parameters with
          | error fault =>
              rw [rest] at taken
              cases taken
          | ok others =>
              rw [rest] at taken
              cases taken
              cases index with
              | zero =>
                  cases found
                  exact isHead
              | succ index =>
                  rw [Nat.add_comm index 1, ← Nat.add_assoc]
                  exact ih rest found
        · cases taken

/-- A cell that was filled when a bean was created is one of the given ones. -/
theorem Table.mem_of_find?_ofList {cells : List (String × Value)} {cell : String} {value : Value}
    (found : (Table.ofList cells).find? cell = some value) : cell ∈ cells.map (·.1) := by
  refine Classical.byContradiction fun absent => ?_
  have different : ∀ entry ∈ cells, cell ≠ entry.1 := by
    rintro entry member rfl
    exact absent (List.mem_map_of_mem member)
  rw [Table.ofList, Table.find?_insertAll_of_ne _ different, Table.find?_empty] at found
  cases found

/-- The supply holds nothing but values that were offered to the points. -/
def Supply.Holds (supply : Supply) (points : List InjectionPoint)
    (offered : InjectionPoint → Value → Prop) : Prop :=
  ∀ index value, supply.find? index = some value →
    ∃ point ∈ points, point.index = index ∧ offered point value

theorem Recipe.input?_of_mem_points {recipe : Recipe} {point : InjectionPoint}
    (member : point ∈ recipe.points) :
    ∃ index isLifted, recipe.input? index = some (.injected point isLifted) := by
  cases recipe with
  | blank => cases member
  | calling method inputs =>
      obtain ⟨input, isInput, isPoint⟩ := List.mem_filterMap.1 member
      obtain ⟨index, inside, rfl⟩ := List.getElem_of_mem isInput
      cases equal : inputs[index] with
      | literal value =>
          rw [equal] at isPoint
          cases isPoint
      | injected other isLifted =>
          rw [equal] at isPoint
          cases isPoint
          exact ⟨index, isLifted, by simp [Recipe.input?, List.getElem?_eq_getElem inside, equal]⟩

/-- A constructor that ran received arguments made from the supply, and filled the cells. -/
theorem Recipe.run_eq_ok {method : Method} {inputs : List Input} {supply : Supply}
    {arguments : List Value} {cells : List (String × Value)}
    (ran : Recipe.run method inputs supply = .ok (arguments, cells)) :
    Method.arguments (Input.prepareAll 0 inputs supply) 0 method.parameters = .ok arguments ∧
      method.call arguments = .ok cells := by
  unfold Recipe.run at ran
  obtain ⟨taken, isTaken, called⟩ := bind_eq_ok_iff.1 ran
  obtain ⟨preset, isPreset, equal⟩ := bind_eq_ok_iff.1 called
  cases equal
  refine ⟨isTaken, ?_⟩
  cases result : method.call arguments with
  | error text =>
      rw [result] at isPreset
      cases isPreset
  | ok filled =>
      rw [result] at isPreset
      cases isPreset
      rfl

/-- A constructor fills no cells but those that it presets. -/
theorem Recipe.presets_of_yields {recipe : Recipe} {supply : Supply} {arguments : List Value}
    {cells : List (String × Value)} (yields : recipe.Yields supply arguments cells)
    {cell : String} {value : Value} (filled : (Table.ofList cells).find? cell = some value) :
    recipe.Presets arguments cell := by
  cases recipe with
  | blank =>
      obtain ⟨_, rfl⟩ := yields
      simp [Table.ofList, Table.insertAll] at filled
  | calling method inputs =>
      exact ⟨cells, (run_eq_ok yields).2, Table.mem_of_find?_ofList filled⟩

namespace Definition

variable {definition : Definition} {offered : InjectionPoint → Value → Prop}

/-- A value that was resolved for an argument was offered to the point of the argument. -/
theorem Numbered.offered_of_find? (numbered : definition.Numbered) {supply : Supply}
    (holds : supply.Holds definition.recipe.points offered) {index : Nat} {value : Value}
    (found : supply.find? index = some value) :
    ∃ point isLifted, definition.recipe.input? index = some (.injected point isLifted) ∧
      offered point value := by
  obtain ⟨point, member, isAt, offers⟩ := holds index value found
  obtain ⟨position, isLifted, isInput⟩ := Recipe.input?_of_mem_points member
  have same : position = index :=
    (numbered.arguments position point isLifted isInput).symm.trans isAt
  subst same
  exact ⟨point, isLifted, isInput, offers⟩

/-- An argument is a literal or was offered for its position. -/
theorem Numbered.receives_of_argument (numbered : definition.Numbered) {method : Method}
    {inputs : List Input} (recipe : definition.recipe = .calling method inputs) {supply : Supply}
    (holds : supply.Holds definition.recipe.points offered) {index : Nat} {value : Value}
    (prepared : (Input.prepareAll 0 inputs supply).find? index = some value) :
    definition.Receives offered value (.argument index) := by
  have received := Input.find?_prepareAll 0 index inputs supply
  rw [Nat.zero_add, prepared] at received
  have offeredHere : ∀ {resolved}, supply.find? index = some resolved →
      ∀ {point isLifted}, inputs[index]? = some (.injected point isLifted) →
        offered point resolved := by
    intro resolved found point isLifted isInput
    obtain ⟨other, _, isOther, offers⟩ := numbered.offered_of_find? holds found
    rw [recipe, Recipe.input?, isInput] at isOther
    cases isOther
    exact offers
  cases isInput : inputs[index]? with
  | none =>
      rw [isInput] at received
      obtain ⟨point, isLifted, isOther, _⟩ := numbered.offered_of_find? holds received.symm
      rw [recipe, Recipe.input?, isInput] at isOther
      cases isOther
  | some input =>
      rw [isInput] at received
      have inRecipe : definition.recipe.input? index = some input := by
        rw [recipe, Recipe.input?, isInput]
      cases input with
      | literal literal =>
          cases received
          exact .literal inRecipe
      | injected point isLifted =>
          cases isLifted with
          | false => exact .argument inRecipe (offeredHere received.symm isInput)
          | true =>
              cases received
              exact .lifted inRecipe fun resolved found => offeredHere found isInput

/-- A bean that was just created keeps literals and what was offered for its arguments. -/
theorem Numbered.accounts_of_yields (numbered : definition.Numbered) {supply : Supply}
    {arguments : List Value} {cells : List (String × Value)}
    (yields : definition.recipe.Yields supply arguments cells)
    (holds : supply.Holds definition.recipe.points offered) :
    definition.Accounts { arguments, cells := Table.ofList cells } offered := by
  intro value place kept
  cases kept with
  | cell left filled => exact absurd (Recipe.presets_of_yields yields filled) left
  | argument received =>
      cases recipe : definition.recipe with
      | blank =>
          rw [recipe] at yields
          obtain ⟨noArguments, _⟩ := yields
          subst noArguments
          simp at received
      | calling method inputs =>
          rw [recipe] at yields
          have prepared := Method.find?_of_arguments (Recipe.run_eq_ok yields).1 received
          rw [Nat.zero_add] at prepared
          exact numbered.receives_of_argument recipe holds prepared

/-- What a bean keeps after more of its cells were filled is accounted for if the values in
these cells are. -/
theorem Accounts.fill {contents later : Contents} (accounts : definition.Accounts contents offered)
    (arguments : later.arguments = contents.arguments)
    (cells : ∀ name value, later.cells.find? name = some value →
      contents.cells.find? name = some value ∨
        ∃ point ∈ definition.fields, point.IsOn name ∧ offered point value) :
    definition.Accounts later offered := by
  intro value place kept
  cases kept with
  | argument received =>
      rw [arguments] at received
      exact accounts value _ (.argument received)
  | cell left filled =>
      rw [arguments] at left
      rcases cells _ _ filled with before | ⟨point, isField, isOn, offers⟩
      · exact accounts value _ (.cell left before)
      · exact .field isField isOn offers

theorem Accounts.mono {contents : Contents} {offered' : InjectionPoint → Value → Prop}
    (accounts : definition.Accounts contents offered)
    (more : ∀ point value, offered point value → offered' point value) :
    definition.Accounts contents offered' := by
  intro value place kept
  cases accounts value place kept with
  | literal isInput => exact .literal isInput
  | argument isInput offers => exact .argument isInput (more _ _ offers)
  | lifted isInput offers =>
      exact .lifted isInput fun found isFound => more _ _ (offers found isFound)
  | field isField isOn offers => exact .field isField isOn (more _ _ offers)

/-- A bean that is held is part of a literal or was offered to the point at its place. -/
theorem Accounts.of_holds {contents : Contents} (accounts : definition.Accounts contents offered)
    {bean : Bean} {place : Place} (held : definition.Holds contents bean place) :
    definition.Gives bean place ∨
      ∃ point value, definition.Injects point place ∧ offered point value ∧ bean ∈ value.beans := by
  obtain ⟨value, kept, inside⟩ : ∃ value, definition.Keeps contents value place ∧
      bean ∈ value.beans := by
    cases held with
    | argument received inside => exact ⟨_, .argument received, inside⟩
    | cell left filled inside => exact ⟨_, .cell left filled, inside⟩
  cases accounts value place kept with
  | literal isInput => exact .inl ⟨value, isInput, inside⟩
  | argument isInput offers => exact .inr ⟨_, value, ⟨_, isInput⟩, offers, inside⟩
  | lifted isInput offers =>
      obtain ⟨found, isFound, isInside⟩ := Value.mem_beans_of_mem_lift inside
      exact .inr ⟨_, found, ⟨_, isInput⟩, offers found isFound, isInside⟩
  | field isField isOn offers => exact .inr ⟨_, value, ⟨isField, isOn⟩, offers, inside⟩

end Definition
end BeanContainer
