import BeanContainer.Proofs.Request.Depth
import BeanContainer.Proofs.Run.Effects

/-!
# Containers between requests

Between requests no name is marked, and the caches agree on their names.  Every request
that is active while one is answered finds the bookkeeping in some state and leaves it in
the same state, whether it succeeds or fails.
-/

namespace BeanContainer
namespace Container

/-- No request is under way, and the caches agree. -/
structure AtRest (container : Container) : Prop where
  constructing : container.constructing = []
  inCreation : container.inCreation = .empty
  agrees : container.CachesAgree

theorem new_atRest (properties : PropertyStore) (heap : Heap) : (new properties heap).AtRest :=
  ⟨rfl, rfl, fun _ => rfl⟩

/-- A container at rest is at rest again after complete requests. -/
theorem AtRest.restores {before after : Container} (rest : before.AtRest)
    (restores : Restores before after) : after.AtRest where
  constructing := restores.constructing.trans rest.constructing
  inCreation := restores.inCreation.trans rest.inCreation
  agrees := restores.agrees rest.agrees

theorem AtRest.effect {operation : Operation} {before after : Container}
    (effect : operation.Effect before after) (rest : before.AtRest) : after.AtRest := by
  cases effect with
  | refused => exact rest
  | registers _ _ => exact ⟨rest.constructing, rest.inCreation, rest.agrees⟩
  | removes => exact ⟨rest.constructing, rest.inCreation, rest.agrees⟩
  | caches _ => exact ⟨rest.constructing, rest.inCreation, rest.agrees.cache _ _ _⟩
  | configures => exact ⟨rest.constructing, rest.inCreation, rest.agrees⟩
  | asks asks _ => exact rest.restores ((asks.restores request_restores).trans (.withHeap _ _))

/-- After every run the container is at rest. -/
theorem run_atRest (properties : PropertyStore) (operations : List Operation) :
    ((new properties).run operations).AtRest :=
  run_holds AtRest (new_atRest properties _) fun _ _ => AtRest.effect

/-- Nothing was requested or cached yet. -/
structure IsFresh (container : Container) : Prop where
  constructing : container.constructing = []
  inCreation : container.inCreation = .empty
  singletons : container.singletons = .empty
  casts : container.casts = .empty

theorem new_isFresh (properties : PropertyStore) (heap : Heap) : (new properties heap).IsFresh :=
  ⟨rfl, rfl, rfl, rfl⟩

/-- The operation prepares for requests: it makes none, and caches no bean. -/
def Prepares : Operation → Prop
  | .register .. | .remove _ | .arrange _ | .addProcessor _ | .addOwnedProcessor _ | .registerScope ..
  | .setProperty .. | .create .. | .setBehaviour .. => True
  | .registerSingleton .. | .request _ | .requestAs .. | .preInstantiate _ | .destroy => False

/-- A fresh container stays fresh while it is prepared. -/
theorem IsFresh.perform {container : Container} (fresh : container.IsFresh) {operation : Operation}
    (prepares : Prepares operation) : (operation.perform container).IsFresh := by
  have configured : ∀ (registry : Registry) (properties : PropertyStore) (processors : Chain)
      (scopes : Table String String) (heap : Heap),
      IsFresh { container with registry, properties, processors, scopes, heap } :=
    fun _ _ _ _ _ => ⟨fresh.constructing, fresh.inCreation, fresh.singletons, fresh.casts⟩
  cases operation with
  | register name declaration =>
      obtain ⟨_, performed⟩ := Operation.perform_register name declaration container
      rw [performed]
      exact configured _ _ _ _ _
  | remove name =>
      obtain ⟨_, performed⟩ := Operation.perform_remove name container
      rw [performed]
      exact configured _ _ _ _ _
  | arrange visiting => exact configured _ _ _ _ _
  | addProcessor processor => exact configured _ _ _ _ _
  | addOwnedProcessor processor => exact configured _ _ _ _ _
  | registerScope name scope =>
      obtain ⟨_, performed⟩ := Operation.perform_registerScope name scope container
      rw [performed]
      exact configured _ _ _ _ _
  | setProperty key document => exact configured _ _ _ _ _
  | create type arguments cells => exact configured _ _ _ _ _
  | setBehaviour type behaviour => exact configured _ _ _ _ _
  | _ => exact prepares.elim

/-- A container that was only prepared is fresh. -/
theorem run_isFresh (properties : PropertyStore) {operations : List Operation}
    (prepares : ∀ operation ∈ operations, Prepares operation) :
    ((new properties).run operations).IsFresh := by
  have prepared : ∀ container : Container, container.IsFresh →
      (container.run operations).IsFresh := by
    induction operations with
    | nil => exact fun _ fresh => fresh
    | cons operation operations ih =>
        intro container fresh
        refine ih (fun other member => prepares other (List.mem_cons_of_mem _ member)) _ ?_
        exact fresh.perform (prepares operation List.mem_cons_self)
  exact prepared _ (new_isFresh properties _)

/-- The call left the bookkeeping as it was: no mark is added or lost, the cached beans
stay with what they can be handed out as, and only singletons of the registry are added,
but not the name of the call if it failed. -/
structure Call.Undone (call : Call) (result : Except BeanError Handout) (after : Container) :
    Prop where
  constructing : after.constructing = call.container.constructing
  inCreation : after.inCreation = call.container.inCreation
  retains : ∀ name bean, call.container.singletons.find? name = some bean →
    after.singletons.find? name = some bean ∧
      after.casts.find? name = call.container.casts.find? name
  agrees : after.CachesAgree
  introduces : ∀ name bean, after.singletons.find? name = some bean →
    call.container.singletons.find? name = none → call.container.IsSingleton name
  uncached : ∀ error, result = .error error →
    call.container.singletons.find? call.name = none → after.singletons.find? call.name = none

/-- The name of a request that failed is not cached by it. -/
theorem request_uncached {name : String} {start : Container} {error : BeanError}
    (failed : (request name start).1 = .error error)
    (uncached : start.singletons.find? name = none) :
    (request name start).2.singletons.find? name = none := by
  exact ((request_cases name start).restores request_restores).2 error failed uncached

theorem request_undone {call : Call} (agree : call.container.CachesAgree) :
    call.Undone (request call.name call.container).1 (request call.name call.container).2 := by
  have restores := request_restores call.name call.container
  exact ⟨restores.constructing, restores.inCreation, restores.retains, restores.agrees agree,
    restores.introduces, fun _ failed uncached => request_uncached failed uncached⟩

/-- The caches agree wherever a call is active. -/
theorem Active.agrees {outermost call : Call} {count : Nat}
    (active : Active outermost count call) (agree : outermost.container.CachesAgree) :
    call.container.CachesAgree := by
  induction active with
  | outermost => exact agree
  | inner _ calls ih => exact calls.nested.agrees request_restores ih

/-- After every run no name is marked and the caches agree on their names, and every
call that is active while a request is answered undoes its bookkeeping. -/
theorem run_undoes_bookkeeping (properties : PropertyStore) (operations : List Operation) :
    ((new properties).run operations).AtRest ∧
      ∀ name count call, Active ⟨name, (new properties).run operations⟩ count call →
        call.Undone (request call.name call.container).1
          (request call.name call.container).2 := by
  have rest := run_atRest properties operations
  refine ⟨rest, ?_⟩
  intro name count call active
  exact request_undone (active.agrees rest.agrees)

end Container
end BeanContainer
