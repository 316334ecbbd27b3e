import BeanContainer.Proofs.Request.Circular
import BeanContainer.Proofs.Run.Identity

/-!
# Reported cycles are there

Between requests no name is marked.  So if a request reports a cycle, then there is one in
the dependencies, and no bean on it could have been handed out before it is finished.
-/

namespace BeanContainer
namespace Container

/-- All cycles of dependencies that can be reached from the name are made of singletons that
are linked by fields. -/
def LinksSingletons (container : Container) (name : String) : Prop :=
  ∀ other next, container.registry.Reaches name other → container.registry.DependsOn other next →
    container.registry.Reaches next other →
      container.IsSingleton other ∧ ¬ container.registry.DependsByArgument other next

/-- A cycle that is reported between requests is there, unless a processor reported it. -/
theorem AtRest.deadlocks {container : Container} (rest : container.AtRest) {name other : String}
    (failed : (request name container).1 = .error (.circular other))
    (unanswered : ¬ container.processors.Answered (.circular other) container.heap
      (request name container).2.heap) :
    container.registry.Reaches name other ∧ container.Deadlocks other := by
  cases request_explained failed with
  | answered answered => exact absurd answered unanswered
  | constructing _ isMarked =>
      rw [rest.constructing] at isMarked
      simp at isMarked
  | creating _ isMarked =>
      rw [rest.inCreation] at isMarked
      simp at isMarked
  | deadlock reaches deadlocks => exact ⟨reaches, deadlocks⟩

/-- After every run, a request that reports a cycle at some name, while no processor answers
with this error, has a chain of dependencies to the name and a cycle from there back to it;
and the name is that of a prototype or the cycle starts with an argument of its constructor.
So cycles of singletons that are linked by fields are never reported. -/
theorem run_reports_deadlocks {properties : PropertyStore} {operations : List Operation}
    {name other : String}
    (failed : (request name ((new properties).run operations)).1 = .error (.circular other))
    (unanswered : ¬ ((new properties).run operations).processors.Answered (.circular other)
      ((new properties).run operations).heap
        (request name ((new properties).run operations)).2.heap) :
    ((new properties).run operations).registry.Reaches name other ∧
      ((new properties).run operations).Deadlocks other ∧
        ¬ ((new properties).run operations).LinksSingletons name := by
  have rest := run_atRest properties operations
  obtain ⟨reaches, deadlocks⟩ := rest.deadlocks failed unanswered
  refine ⟨reaches, deadlocks, ?_⟩
  intro links
  obtain ⟨next, depends, returns, unsafely⟩ := deadlocks
  obtain ⟨singleton, byField⟩ := links other next reaches depends returns
  rcases unsafely with prototype | byArgument
  · exact not_isPrototype singleton prototype
  · exact byField byArgument

/-- Whether a request fails with an error is decided by its result. -/
instance (result : Except BeanError Handout) (error : BeanError) :
    Decidable (result = .error error) :=
  match result with
  | .error other => decidable_of_iff (other = error) ⟨congrArg Except.error, Except.error.inj⟩
  | .ok _ => isFalse nofun

/-- A singleton and a prototype that refer to each other. -/
def mixedPair : List Operation :=
  [.register "Alpha" (referring "Alpha" "Beta"),
    .register "Beta" { referring "Beta" "Alpha" with scope := .given .prototype }]

/-- The prototype cannot be had, as it needs the singleton, which needs another one. -/
theorem mixedPair_reports_deadlock :
    (request "Beta" ((new {}).run mixedPair)).1 = .error (.circular "Beta") ∧
      ¬ ((new {}).run mixedPair).processors.Answered (.circular "Beta")
        ((new {}).run mixedPair).heap (request "Beta" ((new {}).run mixedPair)).2.heap ∧
      ((new {}).run mixedPair).Deadlocks "Beta" := by
  have failed : (request "Beta" ((new {}).run mixedPair)).1 = .error (.circular "Beta") := by
    decide +kernel
  have unanswered : ¬ ((new {}).run mixedPair).processors.Answered (.circular "Beta")
      ((new {}).run mixedPair).heap (request "Beta" ((new {}).run mixedPair)).2.heap := by
    intro answered
    obtain ⟨processor, isLink, _⟩ := answered
    have none : (((new {}).run mixedPair).processors.links.filterMap Link.processor?).isEmpty =
        true := by
      decide +kernel
    rw [List.isEmpty_iff.1 none] at isLink
    simp at isLink
  exact ⟨failed, unanswered, (run_reports_deadlocks failed unanswered).2.1⟩

end Container
end BeanContainer
