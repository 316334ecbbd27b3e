import BeanContainer.Proofs.Request.Steps
import BeanContainer.Proofs.Run.Rest

/-!
# The journal as a ledger

The journal tells which beans were constructed, and for each of them whether it was
entered and what became of it: a bean is entered at most under the name it was
constructed for, and it is in creation exactly until it is committed or abandoned, never
both.
-/

namespace BeanContainer
namespace Container

/-- Whether the event is in the journal. -/
def Noted (container : Container) (event : Event) : Prop :=
  event ∈ container.heap.journal.toList

@[simp] theorem noted_iff {container : Container} {event other : Event} :
    (container.noted event).Noted other ↔ container.Noted other ∨ other = event := by
  simp [Noted]

@[simp] theorem leave_noted_iff {container : Container} {name : String} {event : Event} :
    (container.leave name).Noted event ↔ container.Noted event := Iff.rfl

@[simp] theorem constructed_noted_iff {container : Container} {name : String}
    {definition : Definition} {arguments : List Value} {cells : List (String × Value)}
    {event : Event} :
    (container.constructed name definition arguments cells).Noted event ↔
      container.Noted event ∨
        event = .created (container.heap.create definition.type arguments cells).1 ∨
        event = .constructed name definition
          (container.heap.create definition.type arguments cells).1 := by
  simp [Noted]

@[simp] theorem committed_noted_iff {container : Container} {name : String}
    {definition : Definition} {raw : Bean} {event : Event} :
    (container.committed name definition raw).Noted event ↔
      container.Noted event ∨ event = .committed name raw := by
  simp [Noted, Heap.note]

/-- The journal agrees with itself and with the beans in creation. -/
structure Coherent (container : Container) : Prop where
  placed : ∀ name definition bean, container.Noted (.constructed name definition bean) →
    ∃ record, bean = .plain record ∧ record.index < container.heap.contents.size
  apart : ∀ name definition record other definition' record',
    container.Noted (.constructed name definition (.plain record)) →
      container.Noted (.constructed other definition' (.plain record')) →
        record.index = record'.index → name = other ∧ definition = definition' ∧ record = record'
  entered : ∀ name bean, container.Noted (.entered name bean) →
    ∃ definition, container.Noted (.constructed name definition bean)
  committed : ∀ name bean, container.Noted (.committed name bean) →
    container.Noted (.entered name bean) ∧ ¬ container.Noted (.abandoned name bean)
  abandoned : ∀ name bean, container.Noted (.abandoned name bean) →
    container.Noted (.entered name bean)
  creating : ∀ name bean, container.inCreation.find? name = some bean →
    container.Noted (.entered name bean) ∧ ¬ container.Noted (.committed name bean) ∧
      ¬ container.Noted (.abandoned name bean)
  defined : ∀ name bean, container.inCreation.find? name = some bean →
    ∃ definition, container.registry.find? name = some definition ∧
      container.Noted (.constructed name definition bean)

namespace Coherent

variable {container : Container} (coherent : container.Coherent)
include coherent

/-- A bean belongs to the name it was constructed for. -/
theorem name_eq {bean : Bean} {name other : String}
    (entered : container.Noted (.entered name bean))
    (enteredAgain : container.Noted (.entered other bean)) : name = other := by
  obtain ⟨definition, constructed⟩ := coherent.entered name bean entered
  obtain ⟨definition', constructedAgain⟩ := coherent.entered other bean enteredAgain
  obtain ⟨record, rfl, _⟩ := coherent.placed name definition bean constructed
  exact (coherent.apart _ _ _ _ _ _ constructed constructedAgain rfl).1

/-- A bean that is just being created was not constructed before. -/
theorem unconstructed (type : TypeName) (arguments : List Value) (cells : List (String × Value))
    (name : String) (definition : Definition) :
    ¬ container.Noted (.constructed name definition
      (container.heap.create type arguments cells).1) := by
  intro constructed
  obtain ⟨record, isRecord, inside⟩ := coherent.placed _ _ _ constructed
  cases isRecord
  exact Nat.lt_irrefl _ inside

theorem unentered (type : TypeName) (arguments : List Value) (cells : List (String × Value))
    (name : String) :
    ¬ container.Noted (.entered name (container.heap.create type arguments cells).1) := by
  intro entered
  obtain ⟨definition, constructed⟩ := coherent.entered _ _ entered
  exact coherent.unconstructed type arguments cells name definition constructed

/-! ## Every step keeps the ledger -/

/-- Events that are not of requests do not matter. -/
theorem continues {after : Container} {fills : Nat → Prop}
    (grows : container.heap.Extends fills (fun event => ¬ event.IsOfRequest) after.heap)
    (inCreation : after.inCreation = container.inCreation)
    (registry : ∀ name bean definition, container.inCreation.find? name = some bean →
      container.registry.find? name = some definition →
        after.registry.find? name = some definition) : after.Coherent := by
  have noted_iff : ∀ {event : Event}, event.IsOfRequest →
      (after.Noted event ↔ container.Noted event) := by
    intro event ofRequest
    constructor
    · intro noted
      exact grows.mem_journal_of_not noted fun other => other ofRequest
    · exact grows.mem_journal
  have constructedIff : ∀ name definition bean,
      after.Noted (.constructed name definition bean) ↔
        container.Noted (.constructed name definition bean) := fun _ _ _ => noted_iff trivial
  have enteredIff : ∀ name bean,
      after.Noted (.entered name bean) ↔ container.Noted (.entered name bean) :=
    fun _ _ => noted_iff trivial
  have committedIff : ∀ name bean,
      after.Noted (.committed name bean) ↔ container.Noted (.committed name bean) :=
    fun _ _ => noted_iff trivial
  have abandonedIff : ∀ name bean,
      after.Noted (.abandoned name bean) ↔ container.Noted (.abandoned name bean) :=
    fun _ _ => noted_iff trivial
  constructor
  case placed =>
    intro name definition bean constructed
    rw [constructedIff] at constructed
    obtain ⟨record, isRecord, inside⟩ := coherent.placed name definition bean constructed
    exact ⟨record, isRecord, Nat.lt_of_lt_of_le inside grows.size_le⟩
  case apart =>
    simp only [constructedIff]
    exact coherent.apart
  case entered =>
    simp only [constructedIff, enteredIff]
    exact coherent.entered
  case committed =>
    simp only [committedIff, enteredIff, abandonedIff]
    exact coherent.committed
  case abandoned =>
    simp only [abandonedIff, enteredIff]
    exact coherent.abandoned
  case creating =>
    simp only [inCreation, enteredIff, committedIff, abandonedIff]
    exact coherent.creating
  case defined =>
    intro name bean creating
    rw [inCreation] at creating
    obtain ⟨definition, registered, constructed⟩ := coherent.defined name bean creating
    exact ⟨definition, registry name bean definition creating registered,
      (constructedIff _ _ _).2 constructed⟩

/-- A new bean lies behind all others. -/
theorem construct (name : String) (definition : Definition) (arguments : List Value)
    (cells : List (String × Value)) :
    (container.constructed name definition arguments cells).Coherent := by
  have size : (container.constructed name definition arguments cells).heap.contents.size =
      container.heap.contents.size + 1 := by
    simp [constructed, noted, withHeap, Heap.create, Heap.allocate, Heap.note]
  constructor
  case placed =>
    intro other definition' bean isConstructed
    rw [size]
    simp only [constructed_noted_iff, reduceCtorEq, false_or, Event.constructed.injEq]
      at isConstructed
    rcases isConstructed with before | ⟨_, _, isNew⟩
    · obtain ⟨record, isRecord, inside⟩ := coherent.placed _ _ _ before
      exact ⟨record, isRecord, Nat.lt_succ_of_lt inside⟩
    · exact ⟨_, isNew, Nat.lt_succ_self _⟩
  case apart =>
    intro first definition₁ record second definition₂ record' one two same
    simp only [constructed_noted_iff, reduceCtorEq, false_or, Event.constructed.injEq] at one two
    have behind : ∀ {other definition' record},
        container.Noted (.constructed other definition' (.plain record)) →
          record.index < container.heap.contents.size := by
      intro other definition' record before
      obtain ⟨_, isRecord, inside⟩ := coherent.placed _ _ _ before
      cases isRecord
      exact inside
    rcases one with before | ⟨rfl, rfl, isNew⟩
    · rcases two with beforeAgain | ⟨rfl, rfl, isNew⟩
      · exact coherent.apart _ _ _ _ _ _ before beforeAgain same
      · cases isNew
        have inside := behind before
        exact absurd same (Nat.ne_of_lt inside)
    · cases isNew
      rcases two with before | ⟨rfl, rfl, isNew⟩
      · have inside := behind before
        exact absurd same.symm (Nat.ne_of_lt inside)
      · cases isNew
        exact ⟨rfl, rfl, rfl⟩
  case entered =>
    intro other bean entered
    simp only [constructed_noted_iff, reduceCtorEq, or_false] at entered
    obtain ⟨definition', before⟩ := coherent.entered other bean entered
    exact ⟨definition', by simp [before]⟩
  case committed =>
    intro other bean committed
    simp only [constructed_noted_iff, reduceCtorEq, or_false] at committed ⊢
    exact coherent.committed other bean committed
  case abandoned =>
    intro other bean abandoned
    simp only [constructed_noted_iff, reduceCtorEq, or_false] at abandoned ⊢
    exact coherent.abandoned other bean abandoned
  case creating =>
    intro other bean creating
    simp only [constructed_noted_iff, reduceCtorEq, or_false]
    exact coherent.creating other bean creating
  case defined =>
    intro other bean creating
    obtain ⟨definition', registered, before⟩ := coherent.defined other bean creating
    exact ⟨definition', registered, by simp [before]⟩

/-- A constructed bean that was not entered before may be entered for a registered name. -/
theorem enter {name : String} {definition : Definition} {raw : Bean}
    (registered : container.registry.find? name = some definition)
    (constructed : container.Noted (.constructed name definition raw))
    (unentered : ∀ other, ¬ container.Noted (.entered other raw)) :
    ((container.noted (.entered name raw)).enter name raw).Coherent := by
  have noted : ∀ event, ((container.noted (.entered name raw)).enter name raw).Noted event ↔
      container.Noted event ∨ event = .entered name raw := fun event => noted_iff
  constructor
  case placed =>
    intro other definition' bean before
    simp only [noted, reduceCtorEq, or_false] at before
    exact coherent.placed _ _ _ before
  case apart =>
    simp only [noted, reduceCtorEq, or_false]
    exact coherent.apart
  case entered =>
    intro other bean entered
    simp only [noted, Event.entered.injEq, reduceCtorEq, or_false] at entered ⊢
    rcases entered with before | ⟨rfl, rfl⟩
    · exact coherent.entered other bean before
    · exact ⟨definition, constructed⟩
  case committed =>
    intro other bean committed
    simp only [noted, reduceCtorEq, or_false] at committed ⊢
    exact ⟨.inl (coherent.committed other bean committed).1,
      (coherent.committed other bean committed).2⟩
  case abandoned =>
    intro other bean abandoned
    simp only [noted, reduceCtorEq, or_false] at abandoned ⊢
    exact .inl (coherent.abandoned other bean abandoned)
  case creating =>
    intro other bean creating
    simp only [noted, reduceCtorEq, or_false]
    rcases Table.find?_insert_eq_some_iff.1 creating with ⟨isName, isRaw⟩ | ⟨_, before⟩
    · subst isName isRaw
      refine ⟨.inr rfl, ?_, ?_⟩
      · intro committed
        exact unentered other (coherent.committed other raw committed).1
      · intro abandoned
        exact unentered other (coherent.abandoned other raw abandoned)
    · obtain ⟨entered, uncommitted, unabandoned⟩ := coherent.creating other bean before
      exact ⟨.inl entered, uncommitted, unabandoned⟩
  case defined =>
    intro other bean creating
    rcases Table.find?_insert_eq_some_iff.1 creating with ⟨isName, isRaw⟩ | ⟨_, before⟩
    · subst isName isRaw
      exact ⟨definition, registered, (noted _).2 (.inl constructed)⟩
    · obtain ⟨definition', registered', earlier⟩ := coherent.defined other bean before
      exact ⟨definition', registered', (noted _).2 (.inl earlier)⟩

theorem abandon {name : String} {raw : Bean}
    (creating : container.inCreation.find? name = some raw) :
    ((container.leave name).noted (.abandoned name raw)).Coherent := by
  have noted : ∀ event, ((container.leave name).noted (.abandoned name raw)).Noted event ↔
      container.Noted event ∨ event = .abandoned name raw := fun event => noted_iff
  obtain ⟨entered, uncommitted, _⟩ := coherent.creating name raw creating
  constructor
  case placed =>
    intro other definition bean before
    simp only [noted, reduceCtorEq, or_false] at before
    exact coherent.placed _ _ _ before
  case apart =>
    simp only [noted, reduceCtorEq, or_false]
    exact coherent.apart
  case entered =>
    simp only [noted, reduceCtorEq, or_false]
    exact coherent.entered
  case committed =>
    intro other bean committed
    simp only [noted, reduceCtorEq, or_false, Event.abandoned.injEq, not_or] at committed ⊢
    obtain ⟨isEntered, unabandoned⟩ := coherent.committed other bean committed
    refine ⟨isEntered, unabandoned, ?_⟩
    intro same
    obtain ⟨rfl, rfl⟩ := same
    exact uncommitted committed
  case abandoned =>
    intro other bean abandoned
    simp only [noted, reduceCtorEq, or_false, Event.abandoned.injEq] at abandoned ⊢
    rcases abandoned with before | ⟨rfl, rfl⟩
    · exact coherent.abandoned other bean before
    · exact entered
  case creating =>
    intro other bean stillCreating
    obtain ⟨different, before⟩ := Table.find?_erase_eq_some_iff.1 stillCreating
    simp only [noted, reduceCtorEq, or_false, Event.abandoned.injEq, different, false_and]
    exact coherent.creating other bean before
  case defined =>
    intro other bean stillCreating
    obtain ⟨different, before⟩ := Table.find?_erase_eq_some_iff.1 stillCreating
    obtain ⟨definition, registered, constructed⟩ := coherent.defined other bean before
    exact ⟨definition, registered, (noted _).2 (.inl constructed)⟩

theorem commit {name : String} {raw : Bean}
    (creating : container.inCreation.find? name = some raw) :
    ((container.leave name).noted (.committed name raw)).Coherent := by
  have noted : ∀ event, ((container.leave name).noted (.committed name raw)).Noted event ↔
      container.Noted event ∨ event = .committed name raw := fun event => noted_iff
  obtain ⟨entered, _, unabandoned⟩ := coherent.creating name raw creating
  constructor
  case placed =>
    intro other definition bean before
    simp only [noted, reduceCtorEq, or_false] at before
    exact coherent.placed _ _ _ before
  case apart =>
    simp only [noted, reduceCtorEq, or_false]
    exact coherent.apart
  case entered =>
    simp only [noted, reduceCtorEq, or_false]
    exact coherent.entered
  case committed =>
    intro other bean committed
    simp only [noted, reduceCtorEq, or_false, Event.committed.injEq] at committed ⊢
    rcases committed with before | ⟨rfl, rfl⟩
    · exact coherent.committed other bean before
    · exact ⟨entered, unabandoned⟩
  case abandoned =>
    simp only [noted, reduceCtorEq, or_false]
    exact coherent.abandoned
  case creating =>
    intro other bean stillCreating
    obtain ⟨different, before⟩ := Table.find?_erase_eq_some_iff.1 stillCreating
    simp only [noted, reduceCtorEq, or_false, Event.committed.injEq, different, false_and]
    exact coherent.creating other bean before
  case defined =>
    intro other bean stillCreating
    obtain ⟨different, before⟩ := Table.find?_erase_eq_some_iff.1 stillCreating
    obtain ⟨definition, registered, constructed⟩ := coherent.defined other bean before
    exact ⟨definition, registered, (noted _).2 (.inl constructed)⟩

theorem handOut (name : String) (bean : Bean) :
    (container.noted (.handedOut name bean)).Coherent := by
  constructor
  case placed =>
    intro other definition held constructed
    simp only [noted_iff, reduceCtorEq, or_false] at constructed
    exact coherent.placed _ _ _ constructed
  case apart =>
    simp only [noted_iff, reduceCtorEq, or_false]
    exact coherent.apart
  case entered =>
    simp only [noted_iff, reduceCtorEq, or_false]
    exact coherent.entered
  case committed =>
    simp only [noted_iff, reduceCtorEq, or_false]
    exact coherent.committed
  case abandoned =>
    simp only [noted_iff, reduceCtorEq, or_false]
    exact coherent.abandoned
  case creating =>
    simp only [noted_iff, reduceCtorEq, or_false]
    exact coherent.creating
  case defined =>
    simp only [noted_iff, reduceCtorEq, or_false]
    exact coherent.defined

/-- The caches, the order of the definitions and other parts of the container play no role. -/
theorem congr {after : Container} (heap : after.heap = container.heap)
    (inCreation : after.inCreation = container.inCreation)
    (registered : after.registry.find? = container.registry.find?) : after.Coherent := by
  have grows : container.heap.Continues after.heap := by
    rw [heap]
    exact .refl _
  refine coherent.continues grows inCreation ?_
  intro name bean definition _ found
  rw [registered]
  exact found

/-- Every step of a request keeps the ledger. -/
theorem step {after : Container} (step : Step container after) : after.Coherent := by
  cases step with
  | mark => exact coherent.congr rfl rfl rfl
  | spare => exact coherent.construct _ _ _ _
  | @enter name definition arguments cells registered =>
      refine (coherent.construct name definition arguments cells).enter registered ?_ ?_
      · simp
      · intro other entered
        simp only [constructed_noted_iff, reduceCtorEq, or_false] at entered
        exact coherent.unentered _ _ _ _ entered
  | wire _ _ grows _ => exact coherent.continues grows rfl fun _ _ _ _ registered => registered
  | abandon creating => exact coherent.abandon creating
  | @commit name definition raw _ _ creating _ =>
      exact (coherent.commit creating).congr (committed_heap _ _ _ _)
        (committed_inCreation _ _ _ _) (congrArg Registry.find? (committed_registry _ _ _ _))
  | handOut => exact coherent.handOut _ _

/-- What an operation does keeps the ledger, if no request is under way. -/
theorem effect {operation : Operation} {after : Container} (rest : container.AtRest)
    (numbered : container.registry.Numbered) (effect : operation.Effect container after) :
    after.Coherent := by
  have idle : ∀ name, container.inCreation.find? name = none := by
    intro name
    rw [rest.inCreation]
    exact Table.find?_empty name
  have registers : ∀ registry : Registry, { container with registry := registry }.Coherent := by
    intro registry
    have unchanged : container.heap.Continues container.heap := .refl _
    refine coherent.continues unchanged rfl ?_
    intro name bean definition creating
    rw [idle name] at creating
    cases creating
  cases effect with
  | refused => exact coherent
  | registers => exact registers _
  | removes => exact registers _
  | caches => exact coherent.congr rfl rfl rfl
  | configures => exact coherent.congr rfl rfl rfl
  | asks asks continues =>
      have steps := asks.steps_of_request numbered
      have asked := steps.holds Coherent (fun step coherent => coherent.step step) coherent
      exact asked.continues continues rfl fun _ _ _ _ registered => registered

end Coherent

/-- What every step keeps while the journal is a ledger, all steps keep. -/
theorem Steps.holds_of_coherent {before after : Container} (steps : Steps before after)
    (coherent : before.Coherent) (holds : Container → Prop)
    (keeps : ∀ {before after}, Step before after → before.Coherent → holds before → holds after)
    (start : holds before) : holds after ∧ after.Coherent :=
  steps.holds (fun container => holds container ∧ container.Coherent)
    (fun step both => ⟨keeps step both.2 both.1, both.2.step step⟩) ⟨start, coherent⟩

/-- No request is under way, all definitions are numbered, and the journal is a ledger. -/
structure Sound (container : Container) : Prop where
  rest : container.AtRest
  numbered : container.registry.Numbered
  coherent : container.Coherent

theorem new_sound (properties : PropertyStore) : (new properties).Sound where
  rest := new_atRest properties _
  numbered name definition registered := by
    change Table.find? Table.empty name = some definition at registered
    simp at registered
  coherent := by
    have silent : ∀ event, ¬ (new properties).Noted event := by
      intro event noted
      cases noted
    have idle : ∀ name bean, (new properties).inCreation.find? name ≠ some bean := by
      intro name bean creating
      cases creating
    constructor
    case placed =>
      exact fun _ _ _ noted => absurd noted (silent _)
    case apart =>
      exact fun _ _ _ _ _ _ noted => absurd noted (silent _)
    case entered =>
      exact fun _ _ noted => absurd noted (silent _)
    case committed =>
      exact fun _ _ noted => absurd noted (silent _)
    case abandoned =>
      exact fun _ _ noted => absurd noted (silent _)
    case creating =>
      exact fun _ _ creating => absurd creating (idle _ _)
    case defined =>
      exact fun _ _ creating => absurd creating (idle _ _)

theorem Sound.effect {operation : Operation} {before after : Container} (sound : before.Sound)
    (effect : operation.Effect before after) : after.Sound where
  rest := AtRest.effect effect sound.rest
  coherent := sound.coherent.effect sound.rest sound.numbered effect
  numbered := by
    cases effect with
    | refused => exact sound.numbered
    | @registers name declaration definition _ declared free =>
        intro other definition' registered
        rcases Table.find?_insert_eq_some_iff.1 registered with ⟨_, isNew⟩ | ⟨_, before⟩
        · subst isNew
          exact Declaration.numbered_of_define declared
        · exact sound.numbered other definition' before
    | @removes name =>
        intro other definition registered
        exact sound.numbered other definition (Table.find?_erase_eq_some_iff.1 registered).2
    | caches => exact sound.numbered
    | configures => exact sound.numbered
    | asks asks _ =>
        show Registry.Numbered _
        intro name definition registered
        apply sound.numbered name definition
        rw [← (asks.restores request_restores).registry]
        exact registered

/-- After every run the journal is a ledger. -/
theorem run_sound (properties : PropertyStore) (operations : List Operation) :
    ((new properties).run operations).Sound :=
  run_holds Sound (new_sound properties) fun _ _ _ _ effect sound => sound.effect effect

end Container
end BeanContainer
