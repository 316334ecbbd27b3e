import BeanContainer.TypeName

/-!
# Beans

A bean is a record of some type, or a proxy around another bean.  Either may
have capabilities, by which it takes part in its own life: a callback once it is
wired, one once all singletons exist, one before destruction, an interest in its
name or its container, a priority in lists.  A proxy stands in for what it wraps,
so a capability is sought on the bean itself first and then on the beans behind.
A record can stand in for another bean too, which it keeps in one of its cells;
then the heap says what is behind it.
-/

namespace BeanContainer

/-- What a callback comes to: nothing, or a failure with the given text.  Callbacks
are settled when their bean is created: they write no cells, ask the container
for nothing, and come to the same each time. -/
abbrev CallbackResult := Except String Unit

instance : DecidableEq CallbackResult
  | .ok _, .ok _ => isTrue rfl
  | .error one, .error other => decidable_of_iff (one = other) (by simp)
  | .ok _, .error _ => isFalse nofun
  | .error _, .ok _ => isFalse nofun

/-- The capabilities of one bean.  A bean has them from its creation on. -/
structure Capabilities where
  /-- The callback of a bean that was just wired. -/
  onWired : Option CallbackResult := none
  /-- The callback of a singleton once pre-instantiation has finished. -/
  onReady : Option CallbackResult := none
  /-- Whether the bean is told before its destruction. -/
  onDestroy : Bool := false
  /-- Whether the bean is told its name. -/
  awareOfName : Bool := false
  /-- Whether the bean receives a handle of its container. -/
  awareOfContainer : Bool := false
  /-- The place in injected lists, higher priorities first. -/
  priority : Option Int := none
  /-- The cell of a record with the bean that it stands in for, once that is wired.
  A proxy stands in for what it wraps. -/
  original : Option String := none
  deriving Inhabited, DecidableEq

/-- What identifies a record: where its contents lie, its type, and the label it
is shown under. -/
structure Record where
  index : Nat
  type : TypeName
  label : String
  capabilities : Capabilities
  deriving Inhabited, DecidableEq

/-- A record, or a proxy of some type around another bean. -/
inductive Bean where
  | plain (record : Record)
  | proxy (type : TypeName) (capabilities : Capabilities) (inner : Bean)
  deriving Inhabited, DecidableEq

namespace Bean

def type : Bean → TypeName
  | .plain record => record.type
  | .proxy type _ _ => type

/-- A proxy is shown as its type around the label of what it wraps. -/
def label : Bean → String
  | .plain record => record.label
  | .proxy type _ inner => type.short ++ "(" ++ inner.label ++ ")"

def capabilities : Bean → Capabilities
  | .plain record => record.capabilities
  | .proxy _ capabilities _ => capabilities

/-- The bean, then the beans behind it from the outside in. -/
def chain : Bean → List Bean
  | .plain record => [.plain record]
  | .proxy type capabilities inner => .proxy type capabilities inner :: inner.chain

/-- The record at the end of the chain. -/
def innermost : Bean → Record
  | .plain record => record
  | .proxy _ _ inner => inner.innermost

/-- The bean with the record at the end of its chain as a proxy around another
bean. -/
def inFrontOf : Bean → (behind : Bean) → Bean
  | .plain record, behind => .proxy record.type record.capabilities behind
  | .proxy type capabilities inner, behind =>
      .proxy type capabilities (inner.inFrontOf behind)

/-- The first answer along the chain, with the bean that gave it. -/
def seek {α : Type} (bean : Bean) (ask : Capabilities → Option α) : Option (Bean × α) :=
  bean.chain.findSome? fun link => (ask link.capabilities).map fun answer => (link, answer)

/-- How many beans the search for a capability looks at. -/
def lookedAt {α : Type} (bean : Bean) (ask : Capabilities → Option α) : Nat :=
  match bean.chain.findIdx? fun link => (ask link.capabilities).isSome with
  | some position => position + 1
  | none => bean.chain.length

/-- The priority of the outermost bean along the chain that has one. -/
def priority (bean : Bean) : Option Int :=
  (bean.seek (·.priority)).map (·.2)

/-- Whether the first bean may stand before the second in a list: a bean with a
priority comes before one without, and a higher priority before a lower one. -/
def comesBefore (first second : Bean) : Bool :=
  match first.priority, second.priority with
  | some one, some other => other ≤ one
  | none, some _ => false
  | _, none => true

/-- Sorts beans and what is attached to them by priority; beans of equal rank
keep their order. -/
def sortByPriority {α : Type} (beans : List (Bean × α)) : List (Bean × α) :=
  beans.mergeSort fun one other => one.1.comesBefore other.1

end Bean

/-- A truth value as an answer that may be missing. -/
def capable (has : Bool) : Option Unit := if has then some () else none

end BeanContainer
