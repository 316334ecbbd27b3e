import BeanContainer.Proofs.Run.Ledger
import Mathlib.Data.List.Induction

/-!
# What is injected was handed out

Every value that a constructed bean keeps is a literal, or it was made for the point at its
place: it holds one bean for each name that the point led to when the bean was made, and that
bean was handed out under the name.  This includes beans that were given up and beans that
could not be finished.
-/

namespace BeanContainer

/-- A name is a candidate if its definition can be handed out as the type. -/
theorem Registry.mem_candidates_iff {registry : Registry} {element : TypeName} {name : String} :
    name ∈ (registry.candidates element).all ↔
      ∃ definition, registry.find? name = some definition ∧
        definition.isAssignableTo element = true := by
  simp only [Registry.candidates, Candidates.among, List.mem_map, List.mem_filter,
    ← Registry.mem_visit_iff]
  constructor
  · intro found
    obtain ⟨⟨_, definition⟩, ⟨member, assignable⟩, rfl⟩ := found
    exact ⟨definition, member, assignable⟩
  · intro found
    obtain ⟨definition, member, assignable⟩ := found
    exact ⟨(name, definition), ⟨member, assignable⟩, rfl⟩

namespace Container

/-- The value holds one bean for each name that the point leads to, handed out under that
name. -/
def HandedTo (container : Container) (registry : Registry) (point : InjectionPoint)
    (value : Value) : Prop :=
  ∃ names beans, point.names registry = .ok names ∧ value.beans.Perm beans ∧
    List.Forall₂ (fun name bean => container.Noted (.handedOut name bean)) names beans

/-- What a bean of the definition keeps was handed out to it for what its points lead to. -/
def HasReceived (container : Container) (registry : Registry) (definition : Definition)
    (record : Record) : Prop :=
  ∃ contents, container.heap.contents[record.index]? = some contents ∧
    definition.Accounts contents (container.HandedTo registry)

/-- The later container has all definitions and events of the earlier one. -/
structure Extends (before after : Container) : Prop where
  registry : ∀ name definition, before.registry.find? name = some definition →
    after.registry.find? name = some definition
  journal : ∀ event, before.Noted event → after.Noted event

theorem Step.extends {before after : Container} (step : Step before after) :
    Extends before after where
  journal _ := step.mem_journal
  registry name definition registered := by
    rw [step.registry]
    exact registered

theorem Steps.extends {before after : Container} (steps : Steps before after) :
    Extends before after := by
  induction steps with
  | refl => exact ⟨fun _ _ => id, fun _ => id⟩
  | tail _ step ih =>
      have later := step.extends
      exact ⟨fun name definition registered =>
          later.registry name definition (ih.registry name definition registered),
        fun event noted => later.journal event (ih.journal event noted)⟩

/-- No operation loses an event, and none but a removal loses a definition. -/
theorem extends_of_effect {operation : Operation} {before after : Container}
    (sound : before.Sound) (keeps : ∀ name, operation ≠ .remove name)
    (effect : operation.Effect before after) : Extends before after := by
  cases effect with
  | refused => exact ⟨fun _ _ => id, fun _ => id⟩
  | @registers added declaration definition _ _ free =>
      refine ⟨?_, fun _ => id⟩
      intro name known registered
      exact Table.find?_insert_of_absent definition free registered
  | removes => exact absurd rfl (keeps _)
  | caches => exact ⟨fun _ _ => id, fun _ => id⟩
  | configures => exact ⟨fun _ _ => id, fun _ => id⟩
  | asks asks continues =>
      have asked := (asks.steps_of_request sound.numbered).extends
      exact ⟨asked.registry, fun event noted => continues.mem_journal (asked.journal event noted)⟩

/-- A run that removes no definition loses nothing. -/
theorem run_extends {container : Container} {operations : List Operation}
    (sound : container.Sound) (keeps : ∀ name, .remove name ∉ operations) :
    Extends container (container.run operations) := by
  refine (run_holds (fun later => Extends container later ∧ later.Sound)
    ⟨⟨fun _ _ => id, fun _ => id⟩, sound⟩ ?_).1
  intro operation member before after effect both
  have step : Extends before after := by
    refine extends_of_effect both.2 ?_ effect
    intro name isRemoval
    subst isRemoval
    exact keeps name member
  exact ⟨⟨fun name definition registered =>
      step.registry name definition (both.1.registry name definition registered),
    fun event noted => step.journal event (both.1.journal event noted)⟩, both.2.effect effect⟩

/-! ## What beans keep -/

section Keeping

variable {before after : Container} {registry : Registry}

theorem HandedTo.mono {point : InjectionPoint} {value : Value}
    (handed : before.HandedTo registry point value)
    (journal : ∀ event, before.Noted event → after.Noted event) :
    after.HandedTo registry point value := by
  obtain ⟨names, beans, isNames, same, handedOut⟩ := handed
  exact ⟨names, beans, isNames, same, handedOut.imp fun _ _ => journal _⟩

/-- What was offered for the point was handed out to it. -/
theorem OffersTo.handedTo {point : InjectionPoint} {value : Value}
    (offers : before.OffersTo point value) : before.HandedTo before.registry point value := by
  obtain ⟨names, beans, isNames, same, offered⟩ := offers
  exact ⟨names, beans, isNames, same, offered.imp fun _ _ offers => offers.handedOut⟩

/-- A bean keeps what it received, unless cells of its record are filled. -/
theorem HasReceived.grows {fills : Nat → Prop} {adds : Event → Prop} {definition : Definition}
    {record : Record} (received : before.HasReceived registry definition record)
    (grows : before.heap.Extends fills adds after.heap) (untouched : ¬ fills record.index) :
    after.HasReceived registry definition record := by
  obtain ⟨contents, found, accounts⟩ := received
  obtain ⟨later, foundLater, arguments, cells⟩ := grows.records record.index contents found
  refine ⟨later, foundLater, ?_⟩
  refine (accounts.mono fun _ _ handed => handed.mono fun _ => grows.mem_journal).fill arguments ?_
  intro cell value filled
  rw [cells untouched] at filled
  exact .inl filled

end Keeping

/-- Since the start the definitions are the same, and the beans that were constructed keep
what was handed out to them. -/
structure HandsOver (start container : Container) : Prop where
  registry : container.registry = start.registry
  received : ∀ name definition record,
    container.Noted (.constructed name definition (.plain record)) →
      ¬ start.Noted (.constructed name definition (.plain record)) →
        container.HasReceived start.registry definition record

namespace HandsOver

variable {start before after : Container} (hands : HandsOver start before)
include hands

/-- Other events than constructions do not change what beans keep. -/
theorem grows {fills : Nat → Prop} {adds : Event → Prop}
    (registry : after.registry = before.registry)
    (grows : before.heap.Extends fills adds after.heap) (untouched : ∀ index, ¬ fills index)
    (constructed : ∀ name definition record,
      after.Noted (.constructed name definition (.plain record)) →
        before.Noted (.constructed name definition (.plain record))) : HandsOver start after where
  registry := registry.trans hands.registry
  received name definition record noted isNew :=
    (hands.received name definition record (constructed _ _ _ noted) isNew).grows grows
      (untouched _)

/-- Noting what was done with a bean does not change what beans keep. -/
theorem note (event : Event) (registry : after.registry = before.registry)
    (heap : after.heap = before.heap.note event)
    (other : ∀ name definition bean, event ≠ .constructed name definition bean) :
    HandsOver start after := by
  have grows : before.heap.Extends (fun _ => False) (fun other => other = event) after.heap := by
    rw [heap]
    exact .note before.heap rfl
  refine hands.grows registry grows (fun _ => not_false) ?_
  intro name definition record noted
  exact grows.mem_journal_of_not noted fun isEvent => other _ _ _ isEvent.symm

/-- A new bean keeps what was offered for its arguments. -/
theorem construct {name : String} {definition : Definition} {arguments : List Value}
    {cells : List (String × Value)}
    (accounts : definition.Accounts { arguments, cells := Table.ofList cells } before.OffersTo) :
    HandsOver start (before.constructed name definition arguments cells) := by
  have grows : before.heap.Extends (fun _ => False) (fun _ => True)
      (before.constructed name definition arguments cells).heap :=
    .trans (.create before.heap definition.type arguments cells fun _ => trivial)
      (.note _ trivial)
  refine ⟨hands.registry, ?_⟩
  intro other definition' record constructed isNew
  simp only [constructed_noted_iff, reduceCtorEq, false_or, Event.constructed.injEq]
    at constructed
  rcases constructed with earlier | ⟨rfl, rfl, isRecord⟩
  · exact (hands.received _ _ _ earlier isNew).grows grows not_false
  · cases isRecord
    refine ⟨{ arguments, cells := Table.ofList cells }, ?_, accounts.mono ?_⟩
    · simp [Container.constructed, noted, withHeap, Heap.create, Heap.allocate, Heap.note]
    · intro point value offers
      have handed := offers.handedTo
      rw [hands.registry] at handed
      exact handed.mono fun _ => grows.mem_journal

/-- A bean that is wired keeps what was offered for its fields. -/
theorem wire (coherent : before.Coherent) {name : String} {definition : Definition} {raw : Bean}
    {heap : Heap} (registered : before.registry.find? name = some definition)
    (creating : before.inCreation.find? name = some raw)
    (grows : before.heap.Extends raw.IsAt (fun event => ¬ event.IsOfRequest) heap)
    (cells : ∀ (index : Nat) (contents later : Contents),
      before.heap.contents[index]? = some contents → heap.contents[index]? = some later →
        ∀ (cell : String) (value : Value), later.cells.find? cell = some value →
          contents.cells.find? cell = some value ∨
            ∃ point ∈ definition.fields, point.IsOn cell ∧ before.OffersTo point value) :
    HandsOver start (before.withHeap heap) := by
  refine ⟨hands.registry, ?_⟩
  intro other definition' record noted isNew
  have constructed : before.Noted (.constructed other definition' (.plain record)) :=
    grows.mem_journal_of_not noted fun inner => inner trivial
  obtain ⟨contents, found, accounts⟩ := hands.received _ _ _ constructed isNew
  obtain ⟨later, foundLater, arguments, untouched⟩ := grows.records record.index contents found
  have more : ∀ {point value}, before.HandedTo start.registry point value →
      (before.withHeap heap).HandedTo start.registry point value :=
    fun handed => handed.mono fun _ => grows.mem_journal
  refine ⟨later, foundLater, (accounts.mono fun _ _ => more).fill arguments ?_⟩
  intro cell value filled
  by_cases isRaw : raw.IsAt record.index
  · obtain ⟨wired, isWired, sameIndex⟩ := isRaw
    obtain ⟨known, isKnown, constructedRaw⟩ := coherent.defined name raw creating
    rw [registered] at isKnown
    cases isKnown
    rw [isWired] at constructedRaw
    have same := (coherent.apart _ _ _ _ _ _ constructed constructedRaw sameIndex.symm).2.1
    subst same
    rcases cells _ contents later found foundLater cell value filled with
      earlier | ⟨point, isField, isOn, offers⟩
    · exact .inl earlier
    · have handed := offers.handedTo
      rw [hands.registry] at handed
      exact .inr ⟨point, isField, isOn, more handed⟩
  · rw [untouched isRaw] at filled
    exact .inl filled

/-- Every step of a request hands over what beans keep. -/
theorem step (coherent : before.Coherent) (step : Step before after) : HandsOver start after := by
  cases step with
  | mark => exact ⟨hands.registry, hands.received⟩
  | spare _ accounts => exact hands.construct accounts
  | enter _ accounts _ => exact (hands.construct accounts).note _ rfl rfl (by simp)
  | wire registered creating grows cells =>
      exact hands.wire coherent registered creating grows cells
  | abandon => exact hands.note _ rfl rfl (by simp)
  | commit =>
      exact hands.note _ (committed_registry _ _ _ _) (committed_heap _ _ _ _) (by simp)
  | handOut => exact hands.note _ rfl rfl (by simp)

end HandsOver

/-- No operation loses a record or an event, or fills a cell of a record that was there. -/
theorem perform_grows (operation : Operation) (container : Container) :
    container.heap.Grows (operation.perform container).heap := by
  obtain ⟨asked, middle, asks, extended⟩ :=
    @Operation.perform_extends (fun _ => True) (fun _ => trivial) (fun _ => trivial) (fun _ _ => trivial)
      operation container
  exact (asks.grows request_grows).trans
    (extended.mono (fun _ impossible => impossible.elim) fun _ => id)

/-- A bean that an operation constructs keeps what was handed out to it, for what its points
led to when the operation began. -/
theorem received_of_perform {start : Container} (sound : start.Sound) (operation : Operation)
    {name : String} {definition : Definition} {record : Record}
    (noted : (operation.perform start).Noted (.constructed name definition (.plain record)))
    (isNew : ¬ start.Noted (.constructed name definition (.plain record))) :
    (operation.perform start).HasReceived start.registry definition record := by
  obtain ⟨asked, middle, asks, extended⟩ :=
    @Operation.perform_extends (fun event => ¬ event.IsOfRequest) (fun _ => not_false)
      (fun _ => not_false) (fun _ _ => not_false) operation start
  have both : HandsOver start middle ∧ middle.Coherent := by
    refine (asks.steps_of_request sound.numbered).holds
      (fun container => HandsOver start container ∧ container.Coherent) ?_
      ⟨⟨rfl, fun _ _ _ noted isNew => absurd noted isNew⟩, sound.coherent⟩
    intro before after step both
    exact ⟨both.1.step both.2 step, both.2.step step⟩
  have constructed : middle.Noted (.constructed name definition (.plain record)) :=
    extended.mem_journal_of_not noted fun inner => inner trivial
  exact (both.1.received _ _ _ constructed isNew).grows extended not_false

/-- An operation leaves older beans what they received. -/
theorem HasReceived.perform {container : Container} {registry : Registry}
    {definition : Definition} {record : Record}
    (received : container.HasReceived registry definition record) (operation : Operation) :
    (operation.perform container).HasReceived registry definition record := by
  have inside : record.index < container.heap.contents.size := by
    obtain ⟨contents, found, _⟩ := received
    exact (Array.getElem?_eq_some_iff.1 found).1
  exact received.grows (perform_grows operation container) (Nat.not_le.2 inside)

/-- After a run every constructed bean keeps what was handed out to it, for what its points led
to when the operation began that constructed it. -/
theorem run_received {properties : PropertyStore} {operations : List Operation} {name : String}
    {definition : Definition} {record : Record}
    (noted : ((new properties).run operations).Noted
      (.constructed name definition (.plain record))) :
    ∃ earlier operation later, operations = earlier ++ operation :: later ∧
      ¬ ((new properties).run earlier).Noted (.constructed name definition (.plain record)) ∧
      (operation.perform ((new properties).run earlier)).Noted
        (.constructed name definition (.plain record)) ∧
      ((new properties).run operations).HasReceived ((new properties).run earlier).registry
        definition record := by
  induction operations using List.reverseRecOn with
  | nil => cases noted
  | append_singleton operations operation ih =>
      rw [run_append] at noted ⊢
      by_cases before : ((new properties).run operations).Noted
          (.constructed name definition (.plain record))
      · obtain ⟨earlier, constructing, later, rfl, isNew, constructs, received⟩ := ih before
        exact ⟨earlier, constructing, later ++ [operation], by simp, isNew, constructs,
          received.perform operation⟩
      · have sound := run_sound properties operations
        exact ⟨operations, operation, [], rfl, before, noted,
          received_of_perform sound operation noted before⟩

end Container
end BeanContainer
