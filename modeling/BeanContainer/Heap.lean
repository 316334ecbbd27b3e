import BeanContainer.Event
import BeanContainer.WriteOnce

/-!
# The heap

Beans live in a heap.  It keeps what can change about each record: the cells
filled so far, the names it was told, whether it has a handle of a container.
So it also knows which records stand in for other beans by now.  Beside that it
knows how beans of each type behave, the time that creating beans has taken, and
the journal of all events.
-/

namespace BeanContainer

/-- Where the priority of a bean comes from. -/
inductive PriorityRule where
  | fixed (priority : Int)
  /-- The first constructor argument, or zero if that is no whole number. -/
  | firstArgument
  deriving DecidableEq, Repr

/-- How the beans of a type behave, as far as that is settled by creating one. -/
structure Behaviour where
  onWired : Option CallbackResult := none
  onReady : Option CallbackResult := none
  onDestroy : Bool := false
  awareOfName : Bool := false
  awareOfContainer : Bool := false
  priority : Option PriorityRule := none
  /-- The cell with the bean that one of them stands in for. -/
  original : Option String := none
  /-- How long it takes to create one. -/
  creationTime : Nat := 0
  deriving Inhabited

/-- The bean of a value that is a single one. -/
def Value.bean? : Value → Option Bean
  | ⟨.bean _, bean⟩ => some bean
  | _ => none

/-- The whole number of an integer value. -/
def Value.integer? : Value → Option Int
  | ⟨.scalar (.integer _), number⟩ => some (Subtype.val number)
  | _ => none

namespace Behaviour

/-- The capabilities of a bean made from the arguments. -/
def capabilities (behaviour : Behaviour) (arguments : List Value) : Capabilities where
  onWired := behaviour.onWired
  onReady := behaviour.onReady
  onDestroy := behaviour.onDestroy
  awareOfName := behaviour.awareOfName
  awareOfContainer := behaviour.awareOfContainer
  priority := behaviour.priority.map fun
    | .fixed priority => priority
    | .firstArgument => (arguments.head?.bind Value.integer?).getD 0
  original := behaviour.original

end Behaviour

/-- What can change about a record, and the arguments it was made from. -/
structure Contents where
  arguments : List Value := []
  /-- The names the record was told, in order. -/
  names : List String := []
  /-- Whether the record has a handle of its container. -/
  hasContainer : Bool := false
  /-- The filled cells.  Whoever creates the record may fill some at once; after that
  a cell is filled only by its container, when the record is wired. -/
  cells : Table String Value := .empty
  deriving Inhabited

namespace Contents

/-- One cell of the record. -/
def cell (contents : Contents) (name : String) : WriteOnce Value := ⟨contents.cells.find? name⟩

/-- The contents with one more cell filled, unless it already is. -/
def fill? (contents : Contents) (name : String) (value : Value) : Option Contents :=
  match (contents.cell name).set value with
  | .ok _ => some { contents with cells := contents.cells.insert name value }
  | .error _ => none

end Contents

/-- All records, and what has happened to them. -/
structure Heap where
  contents : Array Contents := #[]
  behaviours : List (TypeName × Behaviour) := []
  elapsed : Nat := 0
  journal : Array Event := #[]
  deriving Inhabited

/-- An action on the heap, which may fail; what was done before stays done. -/
abbrev HeapM := ExceptT BeanError (StateM Heap)

namespace Heap

/-- The heap without beans. -/
def empty : Heap := {}

/-- How beans of the type behave. -/
def behaviour (heap : Heap) (type : TypeName) : Behaviour :=
  ((heap.behaviours.find? fun entry => entry.1 = type).map (·.2)).getD {}

/-- Beans of the type that are created from now on behave in the given way. -/
def setBehaviour (heap : Heap) (type : TypeName) (behaviour : Behaviour) : Heap :=
  { heap with behaviours := (type, behaviour) :: heap.behaviours }

/-- The heap with one more event in its journal. -/
def note (heap : Heap) (event : Event) : Heap :=
  { heap with journal := heap.journal.push event }

/-- The contents of a record. -/
def read (heap : Heap) (record : Record) : Contents := (heap.contents[record.index]?).getD {}

/-- The heap with other contents of a record. -/
def update (heap : Heap) (record : Record) (change : Contents → Contents) : Heap :=
  { heap with contents := heap.contents.modify record.index change }

/-- Makes room for a record with the given label. -/
def allocate (heap : Heap) (label : String) (type : TypeName) (capabilities : Capabilities)
    (contents : Contents) : Record × Heap :=
  (⟨heap.contents.size, type, label, capabilities⟩,
    { heap with contents := heap.contents.push contents })

/-- Creates a bean of the type from arguments, with some cells already filled.  It
is labelled by the type and its number among all records, from one. -/
def create (heap : Heap) (type : TypeName) (arguments : List Value)
    (cells : List (String × Value)) : Bean × Heap :=
  let behaviour := heap.behaviour type
  let label := type.short ++ "#" ++ toString (heap.contents.size + 1)
  let (record, grown) := heap.allocate label type (behaviour.capabilities arguments)
    { arguments, cells := Table.ofList cells }
  let later := { grown with elapsed := grown.elapsed + behaviour.creationTime }
  (.plain record, later.note (.created (.plain record)))

/-- Fills a cell of a record, unless it already is. -/
def fill? (heap : Heap) (record : Record) (cell : String) (value : Value) : Option Heap :=
  ((heap.read record).fill? cell value).map fun contents => heap.update record fun _ => contents

/-! ## Beans behind beans -/

/-- The bean that the record stands in for by now. -/
def wrapped? (heap : Heap) (record : Record) : Option Bean :=
  record.capabilities.original.bind fun cell =>
    ((heap.read record).cells.find? cell).bind Value.bean?

/-- The bean that the bean stands in for by now. -/
def original? (heap : Heap) : Bean → Option Bean
  | .plain record => heap.wrapped? record
  | .proxy _ _ inner => some inner

/-- How many cells are filled. -/
def filled (heap : Heap) : Nat :=
  heap.contents.toList.foldr (fun contents more => contents.cells.size + more) 0

/-- The bean, then the beans behind it from the outside in, where at most the given
number of records stands in for others. -/
def chainWithin (heap : Heap) : (cells : Nat) → Bean → List Bean
  | 0, bean => bean.chain
  | cells + 1, bean =>
      bean.chain ++
        match heap.wrapped? bean.innermost with
        | some inner => chainWithin heap cells inner
        | none => []

/-- The bean, then the beans behind it from the outside in.  A chain that leads
through more cells than are filled comes back to one of them, and nothing new is
behind it.  Whoever wires beans is to keep chains open: on a closed one a search
that has found nothing by then would go on forever, and here it ends. -/
def chain (heap : Heap) (bean : Bean) : List Bean := heap.chainWithin heap.filled bean

/-- The first answer along the chain, with the bean that gave it. -/
def seek {α : Type} (heap : Heap) (bean : Bean) (ask : Capabilities → Option α) :
    Option (Bean × α) :=
  (heap.chain bean).findSome? fun link => (ask link.capabilities).map fun answer => (link, answer)

def outlookWithin (heap : Heap) : (cells : Nat) → Bean → Bean
  | 0, bean => bean
  | cells + 1, bean =>
      match heap.wrapped? bean.innermost with
      | some inner => bean.inFrontOf (outlookWithin heap cells inner)
      | none => bean

/-- The bean as its capabilities look by now, with a proxy for each record that stands
in for another bean. -/
def outlook (heap : Heap) (bean : Bean) : Bean := heap.outlookWithin heap.filled bean

/-- Whether the first bean may stand before the second in a list by the priorities
that they have by now. -/
def comesBefore (heap : Heap) (first second : Bean) : Bool :=
  (heap.outlook first).comesBefore (heap.outlook second)

/-- Sorts beans and what is attached to them by the priorities that they have by now;
beans of equal rank keep their order. -/
def sortByPriority {α : Type} (heap : Heap) (beans : List (Bean × α)) : List (Bean × α) :=
  beans.mergeSort fun one other => heap.comesBefore one.1 other.1

end Heap

/-! ## Actions -/

namespace HeapM

/-- Notes an event. -/
def note (event : Event) : HeapM Unit := modify fun heap => heap.note event

/-- Creates a bean. -/
def create (type : TypeName) (arguments : List Value := []) (cells : List (String × Value) := []) :
    HeapM Bean :=
  modifyGet fun heap => heap.create type arguments cells

/-- Makes a bean by a method from its inputs and the resolved values. -/
def make (type : TypeName) (name : String) (method : Method) (inputs : List Input)
    (supply : Supply) : HeapM Bean :=
  match Recipe.run method inputs supply with
  | .ok (arguments, cells) => create type arguments cells
  | .error fault => throw (.construction name fault)

end HeapM

namespace Bean

/-- Tells the name to the first bean along the chain that is aware of it. -/
def tellName (bean : Bean) (name : String) (heap : Heap) : Option Heap :=
  (heap.seek bean fun capabilities => capable capabilities.awareOfName).map fun (link, _) =>
    let told :=
      match link with
      | .plain record =>
          heap.update record fun contents => { contents with names := contents.names ++ [name] }
      | .proxy .. => heap
    told.note (.named link name)

/-- Gives a handle of the container to the first bean along the chain that is
aware of it. -/
def giveContainer (bean : Bean) (container : String) (heap : Heap) : Option Heap :=
  (heap.seek bean fun capabilities => capable capabilities.awareOfContainer).map fun (link, _) =>
    let told :=
      match link with
      | .plain record => heap.update record fun contents => { contents with hasContainer := true }
      | .proxy .. => heap
    told.note (.acquainted link container)

/-- Runs the callback of a wired bean, if one along the chain has it. -/
def start (bean : Bean) (heap : Heap) : Option (CallbackResult × Heap) :=
  (heap.seek bean (·.onWired)).map fun (link, result) => (result, heap.note (.started link))

/-- Runs the callback of a singleton after pre-instantiation. -/
def notify (bean : Bean) (heap : Heap) : Option (CallbackResult × Heap) :=
  (heap.seek bean (·.onReady)).map fun (link, result) => (result, heap.note (.notified link))

/-- Tells the bean of its destruction. -/
def destroy (bean : Bean) (name : String) (heap : Heap) : Option Heap :=
  (heap.seek bean fun capabilities => capable capabilities.onDestroy).map fun (link, _) =>
    heap.note (.destroyed link name)

end Bean
end BeanContainer
