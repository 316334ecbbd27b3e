import BeanContainer.Container.Basic

/-!
# Requests for beans

A request for a name is answered with the cached singleton, or else by a new
bean: its constructor arguments are resolved and the constructor runs, then its
fields are resolved and written, and the processors and its callback have their
turns.  Resolving a reference is a request of its own.

* A bean requested while its own constructor arguments are being resolved cannot
  be had, and neither can a prototype that is not yet finished.
* A singleton that exists already is handed out although it is not finished, so
  singletons can refer to each other through fields.  The bean that was just
  constructed for such a request is given up.

Every nested request that does not answer at once holds a name in one of two
phases, constructing or in creation, and no name twice in one phase.  So requests
are never nested deeper than twice the number of definitions, plus one.
-/

namespace BeanContainer
namespace Container

open ContainerM

/-- How a request for a bean is answered. -/
abbrev Request := (name : String) → ContainerM Handout

/-! ## Resolving dependencies -/

/-- The answer to a request as a value of the element type. -/
def castTo (target : BeanTarget) (name : String) (handout : Handout) : ContainerM Value :=
  match handout.casts.cast? handout.bean target.element with
  | some value => return value
  | none => throw (.cast name target.element.text)

/-- Beans seen as the element type as the injected value. -/
def collect (target : BeanTarget) (name : String) (beans : List Value) : ContainerM Value :=
  match target.collect? beans with
  | some value => return value
  | none => throw (.cast name target.element.text)

/-- A property as a value of the type it is read as. -/
def resolveProperty (reference : PropertyReference) (type : PropertyType) : ContainerM Value := do
  let container ← get
  match container.properties.readAs type reference.name reference.default with
  | .ok content => return ⟨type.valueType, content⟩
  | .error error => throw (.property error)

/-- One bean seen as the element type. -/
def resolveBean (request : Request) (target : BeanTarget) (name : String) : ContainerM Value := do
  let handout ← request name
  let value ← castTo target name handout
  collect target name [value]

/-- A bean by its name.  An optional reference tolerates every error of kind "not
found", also one from further down. -/
def resolveNamed (request : Request) (reference : BeanReference) (target : BeanTarget) :
    ContainerM (Option Value) := do
  match ← attempt (request reference.name) with
  | .ok handout =>
      let value ← castTo target reference.name handout
      some <$> collect target reference.name [value]
  | .error error =>
      if reference.isOptional && error.isNotFound then return none else throw error

/-- The candidates of a list, each with the value it is injected as. -/
def resolveEach (request : Request) (target : BeanTarget) :
    List String → ContainerM (List (Bean × Value))
  | [] => return []
  | name :: names => do
      let handout ← request name
      let value ← castTo target name handout
      let rest ← resolveEach request target names
      return (handout.bean, value) :: rest

/-- Beans by their type: all candidates by priority, or the selected one. -/
def resolveTyped (request : Request) (point : InjectionPoint) (reference : BeanReference)
    (target : BeanTarget) : ContainerM (Option Value) := do
  let candidates := (← get).registry.candidates target.element
  if target.isMultiple then
    let beans ← resolveEach request target candidates.all
    let heap := (← get).heap
    some <$> collect target point.name ((heap.sortByPriority beans).map (·.2))
  else
    match ← candidates.select point.name point.type.name reference.isOptional with
    | none => return none
    | some name => some <$> resolveBean request target name

/-- What an injection point depends on; nothing if an optional reference finds
nothing. -/
def resolvePoint (request : Request) (point : InjectionPoint) : ContainerM (Option Value) :=
  match point.dependency with
  | .property reference type => some <$> resolveProperty reference type
  | .bean reference target =>
      if reference.isWildcard then resolveTyped request point reference target
      else resolveNamed request reference target

/-- Resolves injection points in order, adding to what is already there. -/
def resolveFrom (request : Request) : List InjectionPoint → Supply → ContainerM Supply
  | [], supply => return supply
  | point :: points, supply => do
      match ← resolvePoint request point with
      | some value => resolveFrom request points (supply.insert point.index value)
      | none => resolveFrom request points supply

/-- Resolves injection points in order. -/
def resolveAll (request : Request) (points : List InjectionPoint) : ContainerM Supply :=
  resolveFrom request points .empty

/-! ## Making a bean -/

/-- Makes a bean by the recipe of its definition.  A blank recipe resolves
nothing. -/
def construct (resolve : List InjectionPoint → ContainerM Supply) (definition : Definition)
    (name : String) : ContainerM Bean :=
  match definition.recipe with
  | .blank => onHeap (HeapM.create definition.type)
  | .calling method inputs => do
      let supply ← resolve definition.recipe.points
      onHeap (HeapM.make definition.type name method inputs supply)

/-- Makes a bean while its name is marked as constructing. -/
def constructGuarded (request : Request) (definition : Definition) (name : String) :
    ContainerM Bean :=
  between (·.beginConstruction name) (·.endConstruction name)
    (construct (resolveAll request) definition name)

/-- Runs the callback of a wired bean, if it has one. -/
def start (name : String) (bean : Bean) : HeapM Unit := do
  match bean.start (← get) with
  | none => return
  | some (result, heap) =>
      set heap
      match result with
      | .ok () => return
      | .error cause => throw (.lifecycle name "after_properties_set" cause)

/-- Writes the resolved fields, then gives the processors and the callback of the
bean their turns. -/
def finish (chain : Chain) (definition : Definition) (name : String) (raw : Bean)
    (supply : Supply) : HeapM Unit := do
  HeapM.note (.resolved name raw)
  supply.wire raw definition.fields
  HeapM.note (.wired name raw)
  chain.inspect name definition.type
  let bean ← chain.pass .before name raw
  start name bean
  let _ ← chain.pass .after name bean

/-- Wires a constructed bean and takes it through its processors. -/
def develop (request : Request) (definition : Definition) (name : String) (raw : Bean) :
    ContainerM Unit := do
  let supply ← resolveAll request definition.fields
  let container ← get
  onHeap (finish container.processors definition name raw supply)

/-- Develops a bean while it is registered as being in creation.  A bean that cannot
be finished is abandoned, but beans that were handed it meanwhile keep it. -/
def developGuarded (request : Request) (definition : Definition) (name : String) (raw : Bean) :
    ContainerM Unit := do
  note (.entered name raw)
  tryCatch
    (between (·.enter name raw) (·.leave name) (develop request definition name raw))
    fun error => do
      note (.abandoned name raw)
      throw error

/-- Keeps a finished bean. -/
def commit (definition : Definition) (name : String) (raw : Bean) : ContainerM Unit := do
  modify fun container => container.keep definition name raw
  note (.committed name raw)

/-- The answer to a request. -/
def handOut (name : String) (bean : Bean) (casts : Casts) : ContainerM Handout := do
  note (.handedOut name bean)
  return ⟨bean, casts⟩

/-- What becomes of a bean that was constructed for a request. -/
def settle (request : Request) (definition : Definition) (name : String) (raw : Bean) :
    ContainerM Handout := do
  match (← get).inCreation.find? name with
  | some present =>
      match definition.scope with
      | .prototype => throw (.circular name)
      | .singleton => handOut name present definition.casts
  | none =>
      developGuarded request definition name raw
      commit definition name raw
      handOut name raw definition.casts

/-- Makes a new bean of the definition for a request. -/
def make (request : Request) (definition : Definition) (name : String) : ContainerM Handout := do
  if name ∈ (← get).constructing then throw (.circular name)
  else
    let raw ← constructGuarded request definition name
    note (.constructed name definition raw)
    settle request definition name raw

/-- Answers a request, given how the requests it makes are answered. -/
def answer (request : Request) : Request := fun name => do
  let container ← get
  match container.singletons.find? name with
  | some bean => handOut name bean (container.castsOf name)
  | none =>
      match container.registry.find? name with
      | none => throw (.definitionNotFound name)
      | some definition => make request definition name

/-- Answers a request, where requests may be nested as deep as the allowance. -/
def requestWithin : (allowance : Nat) → Request
  | 0 => fun _ => throw .tooDeep
  | allowance + 1 => answer (requestWithin allowance)

/-- Obtains the bean of a name. -/
def request : Request := fun name => do
  let container ← get
  requestWithin (2 * container.registry.size + 1) name

/-- Obtains the bean of a name, seen as one of its types. -/
def requestAs (name : String) (target : TypeName) : ContainerM Value := do
  let handout ← request name
  match handout.casts.cast? handout.bean target with
  | some value => return value
  | none => throw (.cast name target.text)

end Container
end BeanContainer
