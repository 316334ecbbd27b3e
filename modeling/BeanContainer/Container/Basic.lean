import BeanContainer.Processor
import BeanContainer.Property.Store
import BeanContainer.Registry

/-!
# The container

A container holds definitions and properties, makes beans on request and keeps
its singletons.  While a request runs it also remembers which beans are on their
way: those whose constructor arguments are being resolved, and those that exist
but are not finished.
-/

namespace BeanContainer

/-- A bean with the types it can be handed out as. -/
structure Handout where
  bean : Bean
  casts : Casts
  deriving Inhabited

/-- Beans by name of one custom scope. -/
abbrev CustomScope := Table String Bean

/-- Definitions, properties, processors and beans. -/
structure Container where
  registry : Registry := {}
  properties : PropertyStore := {}
  /-- The finished singletons. -/
  singletons : Table String Bean := .empty
  /-- The types that each finished singleton can be handed out as. -/
  casts : Table String Casts := .empty
  /-- The bean that was last finished under each name, prototypes included. -/
  finished : Table String Bean := .empty
  /-- The beans that exist and are being wired and processed. -/
  inCreation : Table String Bean := .empty
  /-- The names of beans whose constructor is running, the latest first. -/
  constructing : List String := []
  /-- Which custom scope is registered under each name. -/
  scopes : Table String String := .empty
  processors : Chain := {}
  heap : Heap := {}
  deriving Inhabited

/-- An action on a container, which may fail; what was done before stays done. -/
abbrev ContainerM := ExceptT BeanError (StateM Container)

namespace Container

/-- How a container shows itself while a request runs. -/
def busyText : String := "BeanFactory \x7b state: \"<locked>\" \x7d"

/-- A container without definitions and beans of its own, on a heap that may hold
beans already. -/
def new (properties : PropertyStore := {}) (heap : Heap := {}) : Container where
  properties
  heap
  processors := Chain.ofContainer busyText

/-- The types that the finished singleton of the name can be handed out as. -/
def castsOf (container : Container) (name : String) : Casts :=
  (container.casts.find? name).getD .empty

/-- The container while the constructor of the name runs. -/
def beginConstruction (container : Container) (name : String) : Container :=
  { container with constructing := name :: container.constructing }

/-- The container once the constructor of the name has run. -/
def endConstruction (container : Container) (name : String) : Container :=
  { container with constructing := container.constructing.erase name }

/-- The container while the bean is in creation. -/
def enter (container : Container) (name : String) (raw : Bean) : Container :=
  { container with inCreation := container.inCreation.insert name raw }

/-- The container once the bean of the name is no longer in creation. -/
def leave (container : Container) (name : String) : Container :=
  { container with inCreation := container.inCreation.erase name }

/-- The container with a finished singleton and what it can be handed out as. -/
def cache (container : Container) (name : String) (bean : Bean) (casts : Casts) : Container :=
  { container with
    singletons := container.singletons.insert name bean
    casts := container.casts.insert name casts }

/-- The container with a bean that was finished as its definition says. -/
def keep (container : Container) (definition : Definition) (name : String) (raw : Bean) :
    Container :=
  let cached :=
    match definition.scope with
    | .singleton => container.cache name raw definition.casts
    | .prototype => container
  { cached with finished := cached.finished.insert name raw }

/-- How a container shows itself between requests, line by line. -/
def describe (container : Container) : String :=
  match container.singletons.keys with
  | [] => "BeanFactory"
  | names =>
      "BeanFactory \x7b\n"
        ++ String.join (names.map fun name => "    " ++ name ++ ": \"singleton\",\n") ++ "\x7d"

end Container

namespace ContainerM

/-- An action on the heap as one on the container. -/
def onHeap {α : Type} (action : HeapM α) : ContainerM α := fun container =>
  let (result, heap) := action container.heap
  (result, { container with heap })

/-- Notes an event. -/
def note (event : Event) : ContainerM Unit := onHeap (HeapM.note event)

/-- Runs an action between two changes of the container; the second is made even
if the action fails. -/
def between {α : Type} (enter leave : Container → Container) (action : ContainerM α) :
    ContainerM α := fun container =>
  let (result, final) := action (enter container)
  (result, leave final)

/-- The result of an action as a value. -/
def attempt {α : Type} (action : ContainerM α) : ContainerM (Except BeanError α) := fun container =>
  let (result, final) := action container
  (.ok result, final)

end ContainerM
end BeanContainer
