import BeanContainer.Proofs.Run.Lifecycle
import BeanContainer.Proofs.Run.Origin

/-!
# Which beans are told of their destruction

A container remembers under each name the bean that was finished last, which is the one that the
journal names last.  When the lives of the beans end, these beans are told, each under its name and
once.  For a singleton that the container made this is the cached bean.  Beans that were given up
are never told, and beans that were registered only if the container finished them as well.
-/

namespace BeanContainer

/-! ## The bean that was finished last -/

/-- The bean that was finished in the event, if it was finished under the name. -/
def Event.commit? (name : String) : Event → Option Bean
  | .committed other bean => if other = name then some bean else none
  | _ => none

theorem Event.commit?_eq_some_iff {name : String} {event : Event} {bean : Bean} :
    event.commit? name = some bean ↔ event = .committed name bean := by
  cases event with
  | committed other held => simp [commit?]
  | _ => simp [commit?]

namespace Heap

/-- The bean that was finished last under the name. -/
def lastCommitted (heap : Heap) (name : String) : Option Bean :=
  (heap.journal.toList.filterMap (Event.commit? name)).getLast?

/-- Events by which nothing is finished under the name do not matter. -/
theorem lastCommitted_of_append {before after : Heap} {added : List Event} {name : String}
    (journal : after.journal.toList = before.journal.toList ++ added)
    (uncommitted : ∀ bean, .committed name bean ∉ added) :
    after.lastCommitted name = before.lastCommitted name := by
  have nothing : added.filterMap (Event.commit? name) = [] := by
    rw [List.filterMap_eq_nil_iff]
    intro event member
    rw [Option.eq_none_iff_forall_ne_some]
    intro bean isCommit
    rw [Event.commit?_eq_some_iff.1 isCommit] at member
    exact uncommitted bean member
  rw [lastCommitted, journal, List.filterMap_append, nothing, List.append_nil]
  rfl

theorem lastCommitted_note_self (heap : Heap) (name : String) (bean : Bean) :
    (heap.note (.committed name bean)).lastCommitted name = some bean := by
  simp [lastCommitted, note, Event.commit?]

theorem lastCommitted_note_of_ne (heap : Heap) {name other : String} (bean : Bean)
    (differs : name ≠ other) :
    (heap.note (.committed other bean)).lastCommitted name = heap.lastCommitted name := by
  have noted : (heap.note (.committed other bean)).journal.toList =
      heap.journal.toList ++ [.committed other bean] := by simp [note]
  apply lastCommitted_of_append noted
  intro held member
  cases List.mem_singleton.1 member
  exact differs rfl

/-- What was finished last was finished. -/
theorem mem_of_lastCommitted {heap : Heap} {name : String} {bean : Bean}
    (last : heap.lastCommitted name = some bean) : .committed name bean ∈ heap.journal.toList := by
  have member := List.mem_of_getLast? last
  obtain ⟨event, isEvent, isCommit⟩ := List.mem_filterMap.1 member
  rw [Event.commit?_eq_some_iff.1 isCommit] at isEvent
  exact isEvent

end Heap

namespace Container

/-! ## What the container remembers -/

theorem committed_finished (container : Container) (name : String) (definition : Definition)
    (raw : Bean) :
    (container.committed name definition raw).finished = container.finished.insert name raw := by
  have kept : ((container.leave name).keep definition name raw).finished =
      container.finished.insert name raw := by
    rw [keep]
    cases definition.scope with
    | singleton => rfl
    | prototype => rfl
  exact kept

/-- A step finishes one bean, or none. -/
theorem Step.commits {before after : Container} (step : Step before after) :
    (∃ added, after.heap.journal.toList = before.heap.journal.toList ++ added ∧
      (∀ name bean, .committed name bean ∉ added) ∧ after.finished = before.finished) ∨
    ∃ name definition raw, before.singletons.find? name = none ∧
      after = before.committed name definition raw := by
  cases step with
  | mark => exact .inl ⟨[], by simp, by simp, rfl⟩
  | spare => exact .inl ⟨_, constructed_journal _ _ _ _ _, by simp, rfl⟩
  | @enter name definition arguments cells =>
      have journal := noted_journal (before.constructed name definition arguments cells)
        (.entered name (before.heap.create definition.type arguments cells).1)
      rw [constructed_journal, List.append_assoc] at journal
      exact .inl ⟨_, journal, by simp, rfl⟩
  | wire _ _ grows _ =>
      obtain ⟨added, journal, every⟩ := grows.journal
      exact .inl ⟨added, journal, fun name bean member => every _ member trivial, rfl⟩
  | abandon => exact .inl ⟨_, noted_journal _ _, by simp, rfl⟩
  | commit _ uncached => exact .inr ⟨_, _, _, uncached, rfl⟩
  | handOut => exact .inl ⟨_, noted_journal _ _, by simp, rfl⟩

/-- Under each name the bean is remembered that was finished last, and a singleton that was made
for it is. -/
structure Remembers (container : Container) : Prop where
  last : ∀ name, container.finished.find? name = container.heap.lastCommitted name
  made : ∀ name definition bean, container.heap.Made name definition bean →
    container.finished.find? name = some bean

namespace Remembers

variable {operations : List Operation} {before after : Container}

theorem step (remembers : before.Remembers) (explained : before.CastsExplained operations)
    (coherent : before.Coherent) (step : Step before after) : after.Remembers where
  last name := by
    rcases step.commits with ⟨added, journal, uncommitted, same⟩ | ⟨other, _, raw, _, isAfter⟩
    · rw [same, Heap.lastCommitted_of_append journal (uncommitted name)]
      exact remembers.last name
    · subst isAfter
      rw [committed_finished, committed_heap]
      by_cases isOther : name = other
      · subst isOther
        rw [Table.find?_insert_self, Heap.lastCommitted_note_self]
      · rw [Table.find?_insert_of_ne _ _ isOther, Heap.lastCommitted_note_of_ne _ _ isOther]
        exact remembers.last name
  made name definition bean made := by
    rcases step.committed made.committed with earlier | ⟨known, _, _, _, isAfter⟩
    · have madeBefore := step.made coherent made earlier
      have found := remembers.made name definition bean madeBefore
      have cached := (explained.made name definition bean madeBefore).1
      rcases step.commits with ⟨_, _, _, same⟩ | ⟨other, _, raw, uncached, isAfter⟩
      · rw [same]
        exact found
      · -- Nothing else is finished under a name that is cached.
        have differs : name ≠ other := by
          intro same
          rw [← same, cached] at uncached
          cases uncached
        rw [isAfter, committed_finished, Table.find?_insert_of_ne _ _ differs]
        exact found
    · rw [isAfter, committed_finished]
      exact Table.find?_insert_self _ _ _

theorem steps (remembers : before.Remembers) (explained : before.CastsExplained operations)
    (coherent : before.Coherent) (steps : Steps before after) : after.Remembers := by
  have both := steps.holds_of_coherent coherent
    (fun container => container.Remembers ∧ container.CastsExplained operations)
    (fun step coherent both => ⟨both.1.step both.2 coherent step, both.2.step coherent step⟩)
    ⟨remembers, explained⟩
  exact both.1.1

/-- Events that are not of requests do not matter. -/
theorem continues {heap : Heap} (remembers : before.Remembers)
    (continues : before.heap.Continues heap) : (before.withHeap heap).Remembers where
  last name := by
    obtain ⟨added, journal, every⟩ := continues.journal
    have uncommitted : ∀ bean, .committed name bean ∉ added :=
      fun bean member => every _ member trivial
    exact (remembers.last name).trans (Heap.lastCommitted_of_append journal uncommitted).symm
  made name definition bean made :=
    remembers.made name definition bean (made.of_continues continues)

theorem effect {operation : Operation} (remembers : before.Remembers)
    (explained : before.CastsExplained operations) (sound : before.Sound)
    (effect : operation.Effect before after) : after.Remembers := by
  cases effect with
  | refused => exact remembers
  | registers => exact ⟨remembers.last, remembers.made⟩
  | removes => exact ⟨remembers.last, remembers.made⟩
  | caches => exact ⟨remembers.last, remembers.made⟩
  | configures => exact ⟨remembers.last, remembers.made⟩
  | asks asks continues =>
      have steps := asks.steps_of_request sound.numbered
      exact (remembers.steps explained sound.coherent steps).continues continues

end Remembers

theorem run_remembers (properties : PropertyStore) (operations : List Operation) :
    ((new properties).run operations).Remembers := by
  have start : (new properties).Remembers := by
    refine ⟨fun _ => rfl, ?_⟩
    intro name definition bean made
    cases made.committed
  refine (run_holds (fun container => container.Remembers ∧ container.CastsExplained operations ∧
    container.Sound) ⟨start, new_castsExplained properties operations, new_sound properties⟩ ?_).1
  intro operation member before after effect all
  obtain ⟨remembers, explained, sound⟩ := all
  exact ⟨remembers.effect explained sound effect, explained.effect sound member effect,
    sound.effect effect⟩

/-! ## The end of the lives -/

/-- The beans that are told of their destruction, each with the name that it is told. -/
def destructions (container : Container) : List (String × Bean) :=
  container.heap.answering (fun capabilities => capable capabilities.onDestroy)
    container.finished.entries

theorem destroy_journal (container : Container) :
    container.destroy.heap.journal.toList = container.heap.journal.toList ++
      container.destructions.map fun call => .destroyed call.2 call.1 := by
  have told : ∀ (entries : List (String × Bean)) (heap : Heap), container.heap.SameChains heap →
      (entries.foldl (fun heap entry => (entry.2.destroy entry.1 heap).getD heap)
        heap).journal.toList = heap.journal.toList ++
          (container.heap.answering (fun capabilities => capable capabilities.onDestroy)
            entries).map fun call => .destroyed call.2 call.1 := by
    intro entries
    induction entries with
    | nil => simp [Heap.answering]
    | cons entry entries ih =>
        intro heap same
        rw [List.foldl_cons, Bean.destroy, same.seek, Heap.answering, List.filterMap_cons]
        cases container.heap.seek entry.2 fun capabilities => capable capabilities.onDestroy with
        | none => exact ih heap same
        | some found =>
            have noted := same.trans (.note heap (.destroyed found.1 entry.1))
            refine (ih _ noted).trans ?_
            simp [Heap.note, Heap.answering]
  exact told container.finished.entries container.heap (.refl _)

theorem mem_destructions_iff {container : Container} {name : String} {link : Bean} :
    (name, link) ∈ container.destructions ↔ ∃ bean, container.finished.find? name = some bean ∧
      container.heap.seek bean (fun capabilities => capable capabilities.onDestroy) =
        some (link, ()) := by
  simp only [destructions, Heap.mem_answering_iff, Table.find?_eq_some_iff]
  exact ⟨fun ⟨bean, _, found⟩ => ⟨bean, found⟩, fun ⟨bean, found⟩ => ⟨bean, (), found⟩⟩

/-- The bean is behind the one that was finished last under the name. -/
def StandsBehind (container : Container) (name : String) (bean : Bean) : Prop :=
  ∃ last, container.heap.lastCommitted name = some last ∧ container.heap.Behind last bean

/-- Whoever is told was finished under that name, or is behind the bean that was. -/
theorem Remembers.of_destructions {container : Container} (remembers : container.Remembers)
    {name : String} {link : Bean} (member : (name, link) ∈ container.destructions) :
    container.Noted (.committed name link) ∨ container.StandsBehind name link := by
  obtain ⟨bean, found, isLink⟩ := mem_destructions_iff.1 member
  rw [remembers.last] at found
  rcases (Heap.seek_eq_some_iff.1 isLink).eq_or_behind with same | behind
  · subst same
    exact .inl (Heap.mem_of_lastCommitted found)
  · exact .inr ⟨bean, found, behind⟩

/-- How the lives of the beans of a container end after the operations, given who is told under
which name. -/
structure Ends (operations : List Operation) (container : Container)
    (calls : List (String × Bean)) : Prop where
  journal : container.destroy.heap.journal.toList = container.heap.journal.toList ++
    calls.map fun call => .destroyed call.2 call.1
  once : (calls.map (·.1)).Nodup
  /-- The bean that was finished last under a name is told, or the first one behind it that wants
  to be. -/
  reached : ∀ name link, (name, link) ∈ calls ↔
    ∃ bean, container.heap.lastCommitted name = some bean ∧
      container.heap.seek bean (fun capabilities => capable capabilities.onDestroy) =
        some (link, ())
  /-- A singleton that the container made stays cached, and the last bean of its name. -/
  made : ∀ name definition bean, container.heap.Made name definition bean →
    container.singletons.find? name = some bean ∧ container.heap.lastCommitted name = some bean
  /-- All other cached beans were registered. -/
  cached : ∀ name bean, container.singletons.find? name = some bean →
    (∃ definition, container.heap.Made name definition bean) ∨
      .registerSingleton name bean ∈ operations
  /-- A bean that was only registered as a singleton is told at most for one that it is behind. -/
  registered : ∀ given bean, .registerSingleton given bean ∈ operations →
    (∀ name, ¬ container.Noted (.committed name bean)) →
      ∀ name, (name, bean) ∈ calls → container.StandsBehind name bean
  /-- So is a bean that could not be finished. -/
  failed : ∀ owner bean, container.Noted (.abandoned owner bean) →
    ∀ name, (name, bean) ∈ calls → container.StandsBehind name bean
  /-- So is a bean that was constructed while another one of its name was in creation. -/
  spare : ∀ prior owner definition bean later,
    container.heap.journal.toList = prior ++ .constructed owner definition bean :: later →
      InProgress prior owner → ∀ name, (name, bean) ∈ calls → container.StandsBehind name bean

/-- A lamp that wants to be told of its destruction. -/
def lamp : Bean := .plain ⟨0, ⟨"Lamp"⟩, "Lamp#1", { onDestroy := true }⟩

/-- The lamp is only registered, and a guard that the container makes comes to stand in for it. -/
def guardedLamp : List Operation :=
  [.setBehaviour ⟨"Lamp"⟩ { onDestroy := true }, .setBehaviour ⟨"Guard"⟩ { original := some "ward" },
    .create ⟨"Lamp"⟩ [] [], .registerSingleton "lamp" lamp,
    .register "guard"
      { type := ⟨"Guard"⟩, fields := [⟨"ward", "ward", .bean ⟨⟨"Lamp"⟩, false⟩, "autowire:lamp"⟩] },
    .request "guard"]

example : ((new {}).run guardedLamp).destructions = [("guard", lamp)] := by decide +kernel

/-- The lamp is made, and then registered as a singleton of another name. -/
def lampTwice : List Operation :=
  [.setBehaviour ⟨"Lamp"⟩ { onDestroy := true }, .register "lamp" { type := ⟨"Lamp"⟩ },
    .request "lamp", .registerSingleton "alias" lamp]

end Container
end BeanContainer
