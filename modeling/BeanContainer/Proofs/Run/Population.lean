import BeanContainer.Proofs.Request.Population
import BeanContainer.Proofs.Run.Rest

/-!
# Every field holds what its own tag refers to

A request that succeeds hands out a bean that was there before or that was finished for it.
Every bean that was finished on the way holds in each declared field what was resolved for this
field, and beans that were there before are not touched.
-/

namespace BeanContainer
namespace Container

/-- In every state, a request that succeeds hands out a cached bean, a bean in creation, or one
that was finished for it.  The declared fields of all beans that were finished for it, in any
nested request, hold what they received.  No cell of an older bean changes. -/
theorem request_fills_fields {name : String} {start : Container} {handout : Handout}
    (succeeded : (request name start).1 = .ok handout) :
    (start.singletons.find? name = some handout.bean ∨
      start.inCreation.find? name = some handout.bean ∨
        start.heap.Notes (request name start).2.heap (.committed name handout.bean)) ∧
    (∀ other bean, start.heap.Notes (request name start).2.heap (.committed other bean) →
      Populated start.registry start.properties start.heap (request name start).2.heap
        other bean) ∧
    ∀ (index : Nat) (contents : Contents), start.heap.contents[index]? = some contents →
      ∃ later, (request name start).2.heap.contents[index]? = some later ∧
        later.cells = contents.cells := by
  refine ⟨?_, request_populates name start, ?_⟩
  · have answering := request_cases name start
    rw [succeeded] at answering
    exact answering.handout
  · intro index contents found
    obtain ⟨later, foundLater, _, cells⟩ :=
      (request_grows name start).records index contents found
    have inside := (Array.getElem?_eq_some_iff.1 found).1
    exact ⟨later, foundLater, cells (Nat.not_le_of_lt inside)⟩

/-- A bench with a title from the properties or by default, a list of one lamp, a radio that
may be missing, and all tools; one field has no tag. -/
def bench : Declaration where
  type := ⟨"Bench"⟩
  fields :=
    [⟨"title", "title", .property (.scalar .text), "value:$\x7btitle:=untitled\x7d"⟩,
      ⟨"gap", "gap", .property (.scalar .text), ""⟩,
      ⟨"lamps", "lamps", .bean ⟨⟨"Lamp"⟩, true⟩, "autowire:Lamp"⟩,
      ⟨"radio", "radio", .bean ⟨⟨"Radio"⟩, false⟩, "autowire:Radio,optional"⟩,
      ⟨"tools", "tools", .bean ⟨⟨"Tool"⟩, true⟩, "autowire:?"⟩]

/-- A lamp, a tool and the bench. -/
def workshop : List Operation :=
  [.register "Lamp" { type := ⟨"Lamp"⟩ },
    .register "Pen" { type := ⟨"Pen"⟩, implements := [⟨"Tool"⟩] },
    .register "Bench" bench]

namespace workshop

theorem isFresh : ((new {}).run workshop).IsFresh := run_isFresh {} (by simp [workshop, Prepares])

theorem succeeds : ∃ handout, (request "Bench" ((new {}).run workshop)).1 = .ok handout := by
  have isOk : (request "Bench" ((new {}).run workshop)).1.toOption.isSome = true := by
    decide +kernel
  cases succeeded : (request "Bench" ((new {}).run workshop)).1 with
  | error error =>
      rw [succeeded] at isOk
      cases isOk
  | ok handout => exact ⟨handout, rfl⟩

theorem declares {definition : Definition}
    (registered : ((new {}).run workshop).registry.find? "Bench" = some definition) :
    bench.define = .ok definition := by
  have isOk : bench.define.toOption.isSome = true := by decide +kernel
  have free : (((new {}).run (workshop.take 2)).registry.find? "Bench").isNone = true := by
    decide +kernel
  cases declared : bench.define with
  | error error =>
      rw [declared] at isOk
      cases isOk
  | ok other =>
      have found : ((new {}).run workshop).registry.find? "Bench" = some other :=
        Operation.find?_register declared (Option.isNone_iff_eq_none.1 free)
      rw [registered] at found
      cases found
      rfl

end workshop

/-- The bench is new, and its cells hold what its fields received. -/
theorem bench_fills_fields :
    ∃ handout record contents, ∃ received : List Finding,
      (request "Bench" ((new {}).run workshop)).1 = .ok handout ∧
        handout.bean = .plain record ∧
        (request "Bench" ((new {}).run workshop)).2.heap.contents[record.index]? = some contents ∧
        List.Forall₂ (fun field finding =>
          field.Receives ((new {}).run workshop).registry ((new {}).run workshop).properties
              finding.view finding.asked finding.found ∧
            contents.cells.find? field.cell = finding.found) bench.fields received := by
  obtain ⟨handout, succeeded⟩ := workshop.succeeds
  obtain ⟨ways, populates, _⟩ := request_fills_fields succeeded
  have fresh := workshop.isFresh
  rw [fresh.singletons, fresh.inCreation] at ways
  rcases ways with cached | creating | committed
  · cases cached
  · cases creating
  · obtain ⟨registered, isRecord, _, isFound, _, _, fields⟩ := populates "Bench" _ committed
    have declared := workshop.declares registered
    obtain ⟨received, _, _, holds⟩ := fields bench declared (by decide) fun field _ presets => by
      rw [Declaration.recipe_of_define declared rfl] at presets
      exact presets
    exact ⟨handout, _, _, received, succeeded, isRecord, isFound, holds⟩

end Container
end BeanContainer
