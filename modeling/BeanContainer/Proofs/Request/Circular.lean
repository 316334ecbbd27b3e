import BeanContainer.Proofs.Heap.Blame
import BeanContainer.Proofs.Request.Growth

/-!
# Why a request reports a cycle

A request that reports a cycle at some name has a chain of dependencies to this name.  The
name is marked already when the request is made, or the chain goes on to a cycle on which
its bean cannot be made; unless a processor reported the cycle.
-/

namespace BeanContainer
namespace Container

/-- A cycle of dependencies leads from the name back to it, on which its bean cannot be
made: the bean is a prototype, or the cycle starts with an argument of its constructor. -/
def Deadlocks (container : Container) (name : String) : Prop :=
  ∃ next, container.registry.DependsOn name next ∧ container.registry.Reaches next name ∧
    (container.IsPrototype name ∨ container.registry.DependsByArgument name next)

/-- Why a request for the name, made in the first state, reported a cycle at the other name
and left the second state. -/
inductive Explained (name other : String) (start final : Container) : Prop
  /-- A processor answered with the error. -/
  | answered
      (answered : start.processors.Answered (.circular other) start.heap final.heap)
  | constructing (reaches : start.registry.Reaches name other)
      (isMarked : other ∈ start.constructing)
  | creating (reaches : start.registry.Reaches name other)
      (isMarked : start.inCreation.find? other ≠ none) (prototype : start.IsPrototype other)
  | deadlock (reaches : start.registry.Reaches name other) (deadlocks : start.Deadlocks other)

/-- A reason stays one if more happens. -/
theorem Explained.before {name other : String} {start middle final : Container}
    (explained : Explained name other start middle)
    (extended : middle.heap.journal.toList <+: final.heap.journal.toList) :
    Explained name other start final := by
  cases explained with
  | answered answered => exact .answered (answered.before extended)
  | constructing reaches isMarked => exact .constructing reaches isMarked
  | creating reaches isMarked prototype => exact .creating reaches isMarked prototype
  | deadlock reaches deadlocks => exact .deadlock reaches deadlocks

section Ways

variable {request : Request}
  (each : ∀ name start, Restores start (request name start).2)
  (grows : ∀ name start, Heap.Grows start.heap (request name start).2.heap)
  (explains : ∀ name other start, (request name start).1 = .error (.circular other) →
    Explained name other start (request name start).2)
include each grows explains

/-- A request among others is explained in the state that the first one was made in. -/
theorem Asks.explained {start final : Container} {asked : Asked} {name other : String}
    (asks : Asks request start asked final)
    (member : (name, .error (.circular other)) ∈ asked) : Explained name other start final := by
  obtain ⟨before, middle, after, later, _, asksBefore, isAnswer, asksLater⟩ := asks.split member
  have failed : (request name middle).1 = .error (.circular other) := congrArg Prod.fst isAnswer
  have reason := explains name other middle failed
  rw [isAnswer] at reason
  have restores := asksBefore.restores each
  cases reason with
  | answered answered =>
      rw [restores.processors] at answered
      have extended := (asksBefore.grows grows).journal_isPrefix
      exact .answered ((answered.later extended).before (asksLater.grows grows).journal_isPrefix)
  | constructing reaches isMarked =>
      rw [restores.registry] at reaches
      rw [restores.constructing] at isMarked
      exact .constructing reaches isMarked
  | creating reaches isMarked prototype =>
      rw [IsPrototype, restores.registry] at prototype
      rw [restores.registry] at reaches
      rw [restores.inCreation] at isMarked
      exact .creating reaches isMarked prototype
  | deadlock reaches deadlocks =>
      rw [Deadlocks, IsPrototype, restores.registry] at deadlocks
      rw [restores.registry] at reaches
      exact .deadlock reaches deadlocks

/-- A cycle that was reported while the arguments of a bean were resolved. -/
theorem Asks.explained_constructing {start middle : Container} {asked : Asked}
    {name next other : String} (asks : Asks request (start.beginConstruction name) asked middle)
    (depends : start.registry.DependsByArgument name next)
    (member : (next, .error (.circular other)) ∈ asked) :
    Explained name other start (middle.endConstruction name) := by
  have first : start.registry.DependsOn name next := .inl depends
  cases asks.explained each grows explains member with
  | answered answered => exact .answered answered
  | constructing reaches isMarked =>
      rcases List.mem_cons.1 isMarked with equal | earlier
      · subst equal
        exact .deadlock .refl ⟨next, first, reaches, .inr depends⟩
      · exact .constructing (reaches.head first) earlier
  | creating reaches isMarked prototype =>
      exact .creating (reaches.head first) isMarked prototype
  | deadlock reaches deadlocks => exact .deadlock (reaches.head first) deadlocks

/-- A cycle that was reported while the fields of a bean were resolved. -/
theorem Construction.explained {definition : Definition} {start built middle : Container}
    {raw : Bean} {asked : Asked} {name next other : String}
    (construction : Construction request definition name start raw built)
    (asks : Asks request ((built.noted (.entered name raw)).enter name raw) asked middle)
    (depends : start.registry.DependsOn name next)
    (member : (next, .error (.circular other)) ∈ asked) : Explained name other start middle := by
  have restores := construction.restores each
  have sameRegistry : ((built.noted (.entered name raw)).enter name raw).registry =
      start.registry := restores.registry
  cases asks.explained each grows explains member with
  | answered answered =>
      have sameProcessors : ((built.noted (.entered name raw)).enter name raw).processors =
          start.processors := restores.processors
      rw [sameProcessors] at answered
      have entered : start.heap.Grows (built.noted (.entered name raw)).heap :=
        (construction.grows grows).1.trans (.note _ _)
      exact .answered (answered.later entered.journal_isPrefix)
  | constructing reaches isMarked =>
      rw [sameRegistry] at reaches
      have isMarked : other ∈ built.constructing := isMarked
      rw [restores.constructing] at isMarked
      exact .constructing (reaches.head depends) isMarked
  | creating reaches isMarked prototype =>
      rw [sameRegistry] at reaches
      rw [IsPrototype, sameRegistry] at prototype
      by_cases same : other = name
      · subst same
        exact .deadlock .refl ⟨next, depends, reaches, .inl prototype⟩
      · have isMarked : (built.inCreation.insert name raw).find? other ≠ none := isMarked
        rw [Table.find?_insert_of_ne _ _ same, restores.inCreation] at isMarked
        exact .creating (reaches.head depends) isMarked prototype
  | deadlock reaches deadlocks =>
      rw [sameRegistry] at reaches
      rw [Deadlocks, IsPrototype, sameRegistry] at deadlocks
      exact .deadlock (reaches.head depends) deadlocks

/-- A cycle that was reported by making a bean. -/
theorem Making.explained {definition : Definition} {start final : Container}
    {name other : String} (registered : start.registry.find? name = some definition)
    (making : Making request definition name start (.error (.circular other)) final) :
    Explained name other start final := by
  cases making with
  | busy isMarked => exact .constructing .refl isMarked
  | unconstructed _ asks spoiled =>
      cases spoiled with
      | unresolved gathers =>
          obtain ⟨next, member⟩ := gathers.circular
          exact asks.explained_constructing each grows explains
            ⟨definition, registered, gathers.leadsTo member⟩ member
  | refused construction pending scope =>
      rw [(construction.restores each).inCreation] at pending
      refine .creating .refl ?_ ⟨definition, registered, scope⟩
      rw [pending]
      nofun
  | @abandoned raw built middle asked heap _ construction _ asks finishing =>
      have entered : Restores start (built.noted (.entered name raw)) :=
        (construction.restores each).trans (.noted _ _)
      have asking := asks.restores each
      have sameRegistry : middle.registry = start.registry := asking.registry.trans entered.registry
      have abandoned : heap.journal.toList <+:
          (((middle.withHeap heap).leave name).noted (.abandoned name raw)).heap.journal.toList :=
        (Heap.Grows.note heap _).journal_isPrefix
      cases finishing with
      | unresolved gathers =>
          obtain ⟨next, member⟩ := gathers.circular
          rw [sameRegistry] at gathers
          have depends : start.registry.DependsOn name next :=
            .inr ⟨definition, registered, gathers.leadsTo member⟩
          exact (construction.explained each grows explains asks depends member).before abandoned
      | @run supply _ _ gathers ran =>
          have sameProcessors : middle.processors = start.processors :=
            asking.processors.trans entered.processors
          have answered := finish_circular ran
          rw [sameProcessors] at answered
          have before : start.heap.Grows middle.heap :=
            ((construction.grows grows).1.trans (.note _ _)).trans (asks.grows grows)
          exact .answered ((answered.later before.journal_isPrefix).before abandoned)

theorem Answering.explained {start final : Container} {name other : String}
    (answering : Answering request name start (.error (.circular other)) final) :
    Explained name other start final := by
  cases answering with
  | made _ registered making => exact making.explained each grows explains registered

end Ways

/-- Every cycle that a request reports is explained. -/
theorem request_explained {name other : String} {start : Container}
    (failed : (request name start).1 = .error (.circular other)) :
    Explained name other start (request name start).2 := by
  rw [request_apply] at failed ⊢
  refine requestWithin_induct (motive := fun name start result final => ∀ other,
    result = .error (.circular other) → Explained name other start final) ?_ ?_ _ name start
      other failed
  · nofun
  · intro allowance explains name start result final answering other isCircular
    subst isCircular
    exact answering.explained (requestWithin_restores allowance) (requestWithin_grows allowance)
      (fun name other start => explains name start other)

end Container
end BeanContainer
