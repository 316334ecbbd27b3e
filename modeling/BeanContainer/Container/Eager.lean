import BeanContainer.Container.Operations

/-!
# Creating singletons ahead of requests

Pre-instantiation requests every singleton that is not lazy, in the order in which
the registry visits them, and then notifies all cached singletons that want to
know, once for each name they are cached under.  The first
error ends it, and so does creating beans for longer than a time limit allows:
the bean during whose creation the time ran out is still finished.
-/

namespace BeanContainer
namespace Container

open ContainerM

/-- The names of the singletons that are created ahead. -/
def eagerNames (container : Container) : List String :=
  (container.registry.visit.filter fun entry =>
    entry.2.scope = .singleton && !entry.2.isLazy).map (·.1)

/-- Whether creating beans up to now took longer than allowed. -/
def isOverdue (deadline : Option Nat) (elapsed : Nat) : Bool :=
  match deadline with
  | none => false
  | some deadline => deadline < elapsed

/-- Requests the names one after the other, until one fails or the deadline has
passed.  Passing the deadline counts before the result of the request. -/
def createEach (deadline : Option Nat) : List String → ContainerM Unit
  | [] => return
  | name :: names => do
      let result ← attempt (request name)
      if isOverdue deadline (← get).heap.elapsed then throw .timeout
      else
        match result with
        | .error error => throw error
        | .ok _ => createEach deadline names

/-- Notifies singletons one after the other, until a callback fails. -/
def notifyEach : List (String × Bean) → HeapM Unit
  | [] => return
  | (name, bean) :: rest => do
      match bean.notify (← get) with
      | none => notifyEach rest
      | some (result, heap) =>
          set heap
          match result with
          | .ok () => notifyEach rest
          | .error cause => throw (.lifecycle name "after_singletons_instantiated" cause)

/-- Creates the singletons that are not lazy within a time limit, then notifies
all singletons. -/
def preInstantiate (limit : Option Nat := none) : ContainerM Unit := do
  let container ← get
  let deadline := limit.map fun limit => container.heap.elapsed + limit
  createEach deadline container.eagerNames
  let container ← get
  onHeap (notifyEach container.singletons.entries)

end Container
end BeanContainer
