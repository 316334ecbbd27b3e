import BeanContainer.Proofs.Request.Constructions
import BeanContainer.Proofs.Run.Identity

/-!
# How often singletons are constructed in a run

While a container is only asked for beans and none is given up, a bean of each singleton is
constructed at most once outside the time in which it is in creation.  In this time others may be
constructed that go no further, if the singleton depends on itself.
-/

namespace BeanContainer

/-- The operation asks the container for beans. -/
def Operation.Requests : Operation → Prop
  | .request _ | .requestAs .. | .preInstantiate _ => True
  | .register .. | .remove _ | .arrange _ | .registerSingleton .. | .addProcessor _
  | .addOwnedProcessor _ | .registerScope .. | .setProperty .. | .destroy | .create .. | .setBehaviour .. => False

namespace Container

open Relation

/-- An operation that asks for beans makes requests, and then only notes whom it notified. -/
theorem perform_requests {operation : Operation} (requests : operation.Requests)
    (start : Container) : ∃ asked middle heap, Asks request start asked middle ∧
      middle.heap.Continues heap ∧ operation.perform start = middle.withHeap heap := by
  cases operation with
  | request name => exact ⟨_, _, _, .cons rfl .nil, .refl _, rfl⟩
  | requestAs name target => exact ⟨_, _, _, requestAs_asks name target start, .refl _, rfl⟩
  | preInstantiate limit => exact preInstantiate_asks (fun _ => not_false) limit start
  | _ => exact requests.elim

/-- What asking for beans does for a name: the container is restored, and apart from the time in
which its bean is in creation at most one is constructed, and none if one is cached. -/
structure Requested (start final : Container) (name : String) : Prop where
  restores : Restores start final
  grows : start.heap.Grows final.heap
  once : ConstructsOnceTo start final name
  uncached : ∀ definition bean, start.heap.Notes final.heap (.constructed name definition bean) →
    start.singletons.find? name = none

namespace Requested

variable {first second third : Container} {name : String}

theorem refl (start : Container) (name : String) : Requested start start name :=
  ⟨.refl _, .refl _, .refl _ _, fun _ _ constructed => constructed.irrefl.elim⟩

theorem trans (one : Requested first second name) (two : Requested second third name) :
    Requested first third name where
  restores := one.restores.trans two.restores
  grows := one.grows.trans two.grows
  once := by
    refine one.once.trans two.once one.restores.registry ?_ ?_ ?_
    · rw [IsMarked, IsMarked, one.restores.constructing, one.restores.inCreation]
      exact id
    · exact fun cached definition bean constructed =>
        cached (two.uncached definition bean constructed)
    · exact fun bean found => (two.restores.retains name bean found).1
  uncached definition bean constructed := by
    rcases constructed.split one.grows.journal_isPrefix two.grows.journal_isPrefix with
      early | late
    · exact one.uncached definition bean early
    · cases found : first.singletons.find? name with
      | none => rfl
      | some held =>
          have retained := (one.restores.retains name held found).1
          rw [two.uncached definition bean late] at retained
          cases retained

/-- Each operation that asks for beans does this. -/
theorem perform {operation : Operation} (requests : operation.Requests) (start : Container)
    (name : String) : Requested start (operation.perform start) name := by
  obtain ⟨asked, middle, heap, asks, continues, performed⟩ := perform_requests requests start
  have asking := asks.grows request_grows
  have once := asks.constructs_once_of_request name
  rw [performed]
  refine ⟨(asks.restores request_restores).trans (.withHeap _ _), ?_, ?_, ?_⟩
  · exact asking.trans (continues.mono (fun _ impossible => impossible.elim) fun _ _ => trivial)
  · exact once.extend continues (fun _ _ inner => inner trivial) fun _ => id
  · intro definition bean constructed
    have early := (constructed.split asking.journal_isPrefix continues.journal_isPrefix).resolve_right
      fun last => last.of_extends continues trivial
    obtain ⟨entry, _, reached⟩ := asks.reaches_of_request early
    exact reached.uncached

theorem run {operations : List Operation}
    (requests : ∀ operation ∈ operations, operation.Requests) (start : Container) (name : String) :
    Requested start (start.run operations) name := by
  induction operations generalizing start with
  | nil => exact refl start name
  | cons operation operations ih =>
      have first := perform (requests operation List.mem_cons_self) start name
      exact first.trans (ih (fun other member =>
        requests other (List.mem_cons_of_mem _ member)) (operation.perform start))

end Requested

/-- While a container is only asked for beans and none is given up, a bean of each singleton is
constructed at most once outside the time in which it is in creation, and in this time only if the
singleton lies on a cycle of dependencies.  So a singleton on no cycle is constructed at most
once. -/
theorem run_constructs_once {start : Container} (rest : start.AtRest) {operations : List Operation}
    (requests : ∀ operation ∈ operations, operation.Requests) {events : List Event}
    (journal : (start.run operations).heap.journal.toList = start.heap.journal.toList ++ events)
    (completes : ∀ owner bean, .abandoned owner bean ∉ events) {name : String}
    (singleton : start.IsSingleton name) :
    ConstructsOnce start.registry name ((start.run operations).singletons.find? name) events ∧
      (¬ start.OnCycle name → (constructionsOf name events).length ≤ 1) := by
  obtain ⟨added, journalAdded, once⟩ := (Requested.run requests start name).once
  rw [journal, List.append_cancel_left_eq] at journalAdded
  subst journalAdded
  have unmarked : ¬ start.IsMarked name := by
    rw [IsMarked, rest.constructing, rest.inCreation]
    simp
  have constructs := once completes singleton unmarked
  refine ⟨constructs, fun offCycle => ?_⟩
  cases constructs with
  | none never => simp [never]
  | @once before during after definition bean first cycles never _ =>
      have none : constructionsOf name during = [] := by
        by_contra some
        exact offCycle (cycles some)
      simp [constructionsOf_around, first, none, never]

/-! ## A singleton that is constructed twice -/

namespace mutualPair

/-- Two singletons that refer to each other are registered. -/
def registered : Container := (new {}).run (mutualPair.take 2)

theorem atRest : registered.AtRest := run_atRest {} _

theorem registered_singleton : registered.IsSingleton "Alpha" := by decide +kernel

theorem required : registered.registry.IsRequired := by decide +kernel

theorem untouched : registered.heap.journal.toList = [] := by decide +kernel

theorem run_registered : registered.run [.request "Alpha"] = (new {}).run mutualPair := by
  rw [registered, ← run_append]
  rfl

theorem unabandoned : ¬ (registered.run [.request "Alpha"]).Abandons := by
  rw [run_registered]
  exact completes

theorem succeeds : ∃ handout, (request "Alpha" registered).1 = .ok handout := by
  have isOk : (request "Alpha" registered).1.toOption.isSome = true := by decide +kernel
  cases succeeded : (request "Alpha" registered).1 with
  | error error =>
      rw [succeeded] at isOk
      cases isOk
  | ok handout => exact ⟨handout, rfl⟩

end mutualPair

/-- The first of the two singletons is constructed once before its bean is entered, and once more
while it is in creation. -/
theorem mutualPair_constructs_once :
    (mutualPair.registered.AtRest ∧ mutualPair.registered.IsSingleton "Alpha" ∧
      ¬ (mutualPair.registered.run [.request "Alpha"]).Abandons) ∧
    ConstructsOnce mutualPair.registered.registry "Alpha"
      ((mutualPair.registered.run [.request "Alpha"]).singletons.find? "Alpha")
      (mutualPair.registered.run [.request "Alpha"]).heap.journal.toList := by
  have requests : ∀ operation ∈ [Operation.request "Alpha"], operation.Requests := by
    intro operation member
    rw [List.mem_singleton.1 member]
    trivial
  have journal : (mutualPair.registered.run [.request "Alpha"]).heap.journal.toList =
      mutualPair.registered.heap.journal.toList ++
        (mutualPair.registered.run [.request "Alpha"]).heap.journal.toList := by
    rw [mutualPair.untouched, List.nil_append]
  have once := run_constructs_once mutualPair.atRest requests journal
    (fun owner bean abandoned => mutualPair.unabandoned ⟨owner, bean, abandoned⟩)
    mutualPair.registered_singleton
  exact ⟨⟨mutualPair.atRest, mutualPair.registered_singleton, mutualPair.unabandoned⟩, once.1⟩

/-- It is not so that every singleton is constructed once at most: the first of two singletons that
refer to each other is constructed twice, although no reference is optional, the request succeeds
and no bean is given up. -/
theorem not_constructs_once :
    ¬ ∀ (start : Container) (name : String) (handout : Handout), start.AtRest →
      start.registry.IsRequired → (request name start).1 = .ok handout →
        ¬ (start.run [.request name]).Abandons → start.IsSingleton name →
          (start.run [.request name]).heap.constructions name ≤
            start.heap.constructions name + 1 := by
  intro always
  obtain ⟨handout, succeeded⟩ := mutualPair.succeeds
  have once := always mutualPair.registered "Alpha" handout mutualPair.atRest mutualPair.required
    succeeded mutualPair.unabandoned mutualPair.registered_singleton
  have twice : (mutualPair.registered.run [.request "Alpha"]).heap.constructions "Alpha" =
      mutualPair.registered.heap.constructions "Alpha" + 2 := by
    decide +kernel
  omega

end Container
end BeanContainer
