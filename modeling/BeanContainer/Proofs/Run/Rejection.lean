import BeanContainer.Proofs.Request.Traps
import BeanContainer.Proofs.Run.Circularity

/-!
# Cycles that are rejected

In a fresh container nothing can be handed out before it is finished but singletons in
creation.  So no request succeeds whose name leads to a cycle of prototypes or to a cycle of
constructor arguments, whatever singletons and cycles of singletons lie on the way.
-/

namespace BeanContainer
namespace Container

open Relation

/-- A cycle of dependencies leads from the name back to it, all of whose beans are
prototypes. -/
def OnPrototypeCycle (container : Container) (name : String) : Prop :=
  TransGen (fun name next => container.IsPrototype name ∧ container.registry.DependsOn name next)
    name name

/-- A cycle of dependencies leads from the name back to it, all of whose steps are arguments of
constructors. -/
def OnArgumentCycle (container : Container) (name : String) : Prop :=
  TransGen container.registry.DependsByArgument name name

/-- After one step from a point on a cycle one is on the cycle. -/
theorem exists_next_of_cycle {α : Type} {relation : α → α → Prop} {point : α}
    (cycle : TransGen relation point point) :
    ∃ next, relation point next ∧ TransGen relation next next := by
  obtain ⟨next, first, rest⟩ := TransGen.head'_iff.1 cycle
  exact ⟨next, first, TransGen.tail' rest first⟩

/-- Cycles of prototypes and cycles of constructor arguments are a trap. -/
theorem traps_cycles (container : Container) :
    container.Traps fun name =>
      container.OnPrototypeCycle name ∨ container.OnArgumentCycle name := by
  intro name cyclic
  rcases cyclic with prototypes | arguments
  · obtain ⟨next, ⟨prototype, depends⟩, cycle⟩ := exists_next_of_cycle prototypes
    exact .inr ⟨prototype, next, .inl cycle, depends⟩
  · obtain ⟨next, depends, cycle⟩ := exists_next_of_cycle arguments
    exact .inl ⟨next, .inr cycle, depends⟩

/-- In a fresh container without optional references, no request succeeds whose name leads to
a cycle of prototypes or to a cycle of constructor arguments. -/
theorem request_rejects_cycles {container : Container} (fresh : container.IsFresh)
    (required : container.registry.IsRequired) {name other : String}
    (reaches : container.registry.Reaches name other)
    (cyclic : container.OnPrototypeCycle other ∨ container.OnArgumentCycle other) :
    ∃ error, (request name container).1 = .error error := by
  have avoiding : Avoids (fun name => container.OnPrototypeCycle name ∨
      container.OnArgumentCycle name) container := by
    constructor
    · intro name bean found
      rw [fresh.singletons] at found
      cases found
    · intro name _ pending
      rw [fresh.inCreation] at pending
      exact absurd rfl pending
  cases succeeded : (request name container).1 with
  | error error => exact ⟨error, rfl⟩
  | ok handout =>
      have apart := request_avoids required container.traps_cycles avoiding succeeded
      exact absurd (Leads.of_reaches fresh.inCreation reaches cyclic) apart

/-- Two singletons that refer to each other, of which one also refers to a prototype that
refers to itself through another one. -/
def sidetrack : List Operation :=
  [.register "Alpha" (referring "Alpha" "Beta"),
    .register "Beta" { referring "Beta" "Alpha" with
      fields := (referring "Beta" "Alpha").fields ++
        [⟨"other", "other", .bean ⟨⟨"Gamma"⟩, false⟩, "autowire:?"⟩] },
    .register "Gamma" { referring "Gamma" "Delta" with scope := .given .prototype },
    .register "Delta" { referring "Delta" "Gamma" with scope := .given .prototype }]

theorem sidetrack_isFresh : ((new {}).run sidetrack).IsFresh :=
  run_isFresh {} (by simp [sidetrack, Prepares])

/-- The singletons are not handed out, as one of them leads to the cycle of prototypes. -/
theorem sidetrack_rejected :
    ((new {}).run sidetrack).registry.IsRequired ∧
      ((new {}).run sidetrack).registry.Reaches "Alpha" "Gamma" ∧
      ((new {}).run sidetrack).OnPrototypeCycle "Gamma" ∧
      ∃ error, (request "Alpha" ((new {}).run sidetrack)).1 = .error error := by
  have required : ((new {}).run sidetrack).registry.IsRequired := by decide +kernel
  have reaches : ((new {}).run sidetrack).registry.Reaches "Alpha" "Gamma" := by
    have first : ((new {}).run sidetrack).registry.DependsOn "Alpha" "Beta" := by decide +kernel
    have second : ((new {}).run sidetrack).registry.DependsOn "Beta" "Gamma" := by decide +kernel
    exact ReflTransGen.tail (ReflTransGen.single first) second
  have cyclic : ((new {}).run sidetrack).OnPrototypeCycle "Gamma" := by
    have first : ((new {}).run sidetrack).IsPrototype "Gamma" ∧
        ((new {}).run sidetrack).registry.DependsOn "Gamma" "Delta" := by decide +kernel
    have second : ((new {}).run sidetrack).IsPrototype "Delta" ∧
        ((new {}).run sidetrack).registry.DependsOn "Delta" "Gamma" := by decide +kernel
    exact TransGen.tail (TransGen.single first) second
  exact ⟨required, reaches, cyclic,
    request_rejects_cycles sidetrack_isFresh required reaches (.inl cyclic)⟩

end Container
end BeanContainer
