import BeanContainer.Proofs.Request.Growth
import Mathlib.Logic.Relation

/-!
# Requests as sequences of steps

However deep requests are nested, a container changes one step at a time: a bean is
constructed, entered, wired, abandoned or finished, and handed out.  Each step says where
the beans come from that it puts into other beans: they were handed out before, and can
still be had under their names.  So what every step keeps, every request keeps.
-/

namespace BeanContainer

/-- All definitions are numbered. -/
def Registry.Numbered (registry : Registry) : Prop :=
  ∀ name definition, registry.find? name = some definition → definition.Numbered

namespace Container

open Relation

/-- The bean can be had under the name: it is the finished singleton or the bean in
creation, or a prototype that was finished for the name. -/
inductive Has (container : Container) (name : String) (bean : Bean) : Prop
  | cached (found : container.singletons.find? name = some bean)
  | creating (found : container.inCreation.find? name = some bean)
  | prototype {definition : Definition}
      (registered : container.registry.find? name = some definition)
      (scope : definition.scope = .prototype)
      (committed : .committed name bean ∈ container.heap.journal.toList)

/-- The bean was handed out under the name, and can still be had. -/
structure Offers (container : Container) (name : String) (bean : Bean) : Prop where
  has : container.Has name bean
  handedOut : .handedOut name bean ∈ container.heap.journal.toList

/-- The value holds one bean for each name that the point leads to, offered under that name. -/
def OffersTo (container : Container) (point : InjectionPoint) (value : Value) : Prop :=
  ∃ names beans, point.names container.registry = .ok names ∧ value.beans.Perm beans ∧
    List.Forall₂ container.Offers names beans

/-- Everything that the bean holds can still be had where it came from. -/
def Accounts (container : Container) (definition : Definition) (bean : Bean) : Prop :=
  ∃ record contents, bean = .plain record ∧
    container.heap.contents[record.index]? = some contents ∧
      definition.Accounts contents container.OffersTo

/-- The container with a new bean of the definition. -/
def constructed (container : Container) (name : String) (definition : Definition)
    (arguments : List Value) (cells : List (String × Value)) : Container :=
  (container.withHeap (container.heap.create definition.type arguments cells).2).noted
    (.constructed name definition (container.heap.create definition.type arguments cells).1)

/-- The container once the bean has left creation as a finished one. -/
def committed (container : Container) (name : String) (definition : Definition) (raw : Bean) :
    Container :=
  ((container.leave name).keep definition name raw).noted (.committed name raw)

section Committed

variable (container : Container) (name : String) (definition : Definition) (raw : Bean)

@[simp] theorem committed_registry :
    (container.committed name definition raw).registry = container.registry :=
  keep_registry _ _ _ _

@[simp] theorem committed_inCreation :
    (container.committed name definition raw).inCreation = container.inCreation.erase name :=
  keep_inCreation _ _ _ _

@[simp] theorem committed_heap :
    (container.committed name definition raw).heap =
      container.heap.note (.committed name raw) := by
  show (Container.keep _ _ _ _).heap.note _ = _
  rw [keep_heap, leave_heap]

end Committed

/-- One step of a container that answers requests. -/
inductive Step : Container → Container → Prop
  /-- Names are marked as constructing, or no longer so. -/
  | mark {container : Container} (constructing : List String) :
      Step container { container with constructing }
  /-- A bean is constructed and then given up. -/
  | spare {container : Container} {name : String} {definition : Definition}
      {arguments : List Value} {cells : List (String × Value)}
      (registered : container.registry.find? name = some definition)
      (accounts : definition.Accounts { arguments, cells := Table.ofList cells }
        container.OffersTo) :
      Step container (container.constructed name definition arguments cells)
  /-- A bean is constructed and entered. -/
  | enter {container : Container} {name : String} {definition : Definition}
      {arguments : List Value} {cells : List (String × Value)}
      (registered : container.registry.find? name = some definition)
      (accounts : definition.Accounts { arguments, cells := Table.ofList cells }
        container.OffersTo)
      (fresh : container.inCreation.find? name = none) :
      Step container
        (((container.constructed name definition arguments cells).noted
          (.entered name (container.heap.create definition.type arguments cells).1)).enter name
            (container.heap.create definition.type arguments cells).1)
  /-- A bean in creation is wired, and the heap continues. -/
  | wire {container : Container} {name : String} {definition : Definition} {raw : Bean}
      {heap : Heap} (registered : container.registry.find? name = some definition)
      (creating : container.inCreation.find? name = some raw)
      (grows : container.heap.Extends raw.IsAt (fun event => ¬ event.IsOfRequest) heap)
      (cells : ∀ (index : Nat) (contents later : Contents),
        container.heap.contents[index]? = some contents → heap.contents[index]? = some later →
          ∀ (cell : String) (value : Value), later.cells.find? cell = some value →
            contents.cells.find? cell = some value ∨
              ∃ point ∈ definition.fields, point.IsOn cell ∧ container.OffersTo point value) :
      Step container (container.withHeap heap)
  | abandon {container : Container} {name : String} {raw : Bean}
      (creating : container.inCreation.find? name = some raw) :
      Step container ((container.leave name).noted (.abandoned name raw))
  | commit {container : Container} {name : String} {definition : Definition} {raw : Bean}
      (registered : container.registry.find? name = some definition)
      (uncached : container.singletons.find? name = none)
      (creating : container.inCreation.find? name = some raw)
      (accounts : container.Accounts definition raw) :
      Step container (container.committed name definition raw)
  | handOut {container : Container} {name : String} {bean : Bean}
      (has : container.Has name bean) : Step container (container.noted (.handedOut name bean))

/-- Steps one after the other. -/
abbrev Steps : Container → Container → Prop := ReflTransGen Step

/-- What every step keeps, all steps keep. -/
theorem Steps.holds {before after : Container} (steps : Steps before after)
    (holds : Container → Prop)
    (keeps : ∀ {before after}, Step before after → holds before → holds after)
    (start : holds before) : holds after := by
  induction steps with
  | refl => exact start
  | tail _ step ih => exact keeps step ih

/-! ## The journal and the registry -/

@[simp] theorem constructed_journal (container : Container) (name : String)
    (definition : Definition) (arguments : List Value) (cells : List (String × Value)) :
    (container.constructed name definition arguments cells).heap.journal.toList =
      container.heap.journal.toList ++
        [.created (container.heap.create definition.type arguments cells).1,
          .constructed name definition
            (container.heap.create definition.type arguments cells).1] := by
  simp [constructed, withHeap, Heap.create, Heap.allocate, Heap.note]

/-- No step changes the registry. -/
theorem Step.registry {before after : Container} (step : Step before after) :
    after.registry = before.registry := by
  cases step with
  | mark => rfl
  | spare => rfl
  | enter => rfl
  | wire => rfl
  | abandon => rfl
  | commit => exact committed_registry _ _ _ _
  | handOut => rfl

/-- A step fills cells of beans in creation only. -/
theorem Step.grows {before after : Container} (step : Step before after) :
    before.heap.Extends
      (fun index => ∃ name raw, before.inCreation.find? name = some raw ∧ raw.IsAt index)
      (fun _ => True) after.heap := by
  have constructs : ∀ name definition arguments cells, before.heap.Extends
      (fun index => ∃ name raw, before.inCreation.find? name = some raw ∧ raw.IsAt index)
      (fun _ => True) (before.constructed name definition arguments cells).heap :=
    fun name definition arguments cells =>
      .trans (.create before.heap definition.type arguments cells fun _ => trivial)
        (.note _ trivial)
  cases step with
  | mark => exact .refl _
  | spare => exact constructs _ _ _ _
  | enter => exact (constructs _ _ _ _).trans (.note _ trivial)
  | @wire name definition raw _ _ creating grows _ =>
      exact grows.mono (fun _ isAt => ⟨name, raw, creating, isAt⟩) fun _ _ => trivial
  | abandon => exact .note before.heap trivial
  | commit =>
      rw [committed_heap]
      exact .note before.heap trivial
  | handOut => exact .note before.heap trivial

/-- No step loses an event. -/
theorem Step.mem_journal {before after : Container} (step : Step before after) {event : Event}
    (member : event ∈ before.heap.journal.toList) : event ∈ after.heap.journal.toList :=
  step.grows.mem_journal member

/-! ## What is offered stays offered -/

/-- Nothing that can be had is lost. -/
structure Preserves (before after : Container) : Prop where
  registry : after.registry = before.registry
  singletons : ∀ name bean, before.singletons.find? name = some bean →
    after.singletons.find? name = some bean
  inCreation : ∀ name bean, before.inCreation.find? name = some bean →
    after.inCreation.find? name = some bean
  journal : ∀ event, event ∈ before.heap.journal.toList → event ∈ after.heap.journal.toList

namespace Preserves

variable {first second third : Container}

theorem trans (one : Preserves first second) (two : Preserves second third) :
    Preserves first third where
  registry := two.registry.trans one.registry
  singletons name bean found := two.singletons name bean (one.singletons name bean found)
  inCreation name bean found := two.inCreation name bean (one.inCreation name bean found)
  journal event member := two.journal event (one.journal event member)

theorem of_restores (restores : Restores first second) (grows : first.heap.Grows second.heap) :
    Preserves first second where
  registry := restores.registry
  singletons name bean found := (restores.retains name bean found).1
  inCreation name bean found := by
    rw [restores.inCreation]
    exact found
  journal _ := grows.mem_journal

theorem withHeap {container : Container} {heap : Heap} {fills : Nat → Prop}
    {adds : Event → Prop} (extended : Heap.Extends fills adds container.heap heap) :
    Preserves container (container.withHeap heap) :=
  ⟨rfl, fun _ _ => id, fun _ _ => id, fun _ => extended.mem_journal⟩

theorem mark (container : Container) (constructing : List String) :
    Preserves container { container with constructing } :=
  ⟨rfl, fun _ _ => id, fun _ _ => id, fun _ => id⟩

theorem noted (container : Container) (event : Event) :
    Preserves container (container.noted event) :=
  withHeap (Heap.Grows.note container.heap event)

theorem enter {container : Container} {name : String} (raw : Bean)
    (fresh : container.inCreation.find? name = none) :
    Preserves container (container.enter name raw) := by
  refine ⟨rfl, fun _ _ => id, ?_, fun _ => id⟩
  intro other bean creating
  exact Table.find?_insert_of_absent raw fresh creating

theorem constructed (container : Container) (name : String) (definition : Definition)
    (arguments : List Value) (cells : List (String × Value)) :
    Preserves container (container.constructed name definition arguments cells) :=
  trans (withHeap (Heap.Grows.create container.heap definition.type arguments cells)) (noted _ _)

/-- A bean is constructed and entered. -/
theorem entered (container : Container) {name : String} (definition : Definition)
    (arguments : List Value) (cells : List (String × Value))
    (fresh : container.inCreation.find? name = none) :
    Preserves container
      (((container.constructed name definition arguments cells).noted
        (.entered name (container.heap.create definition.type arguments cells).1)).enter name
          (container.heap.create definition.type arguments cells).1) :=
  trans (trans (constructed container name definition arguments cells) (noted _ _))
    (enter _ fresh)

theorem has (preserves : Preserves first second) {name : String} {bean : Bean}
    (has : first.Has name bean) : second.Has name bean := by
  cases has with
  | cached found => exact .cached (preserves.singletons name bean found)
  | creating found => exact .creating (preserves.inCreation name bean found)
  | prototype registered scope committed =>
      exact .prototype (by rw [preserves.registry]; exact registered) scope
        (preserves.journal _ committed)

theorem offers (preserves : Preserves first second) {name : String} {bean : Bean}
    (offers : first.Offers name bean) : second.Offers name bean :=
  ⟨preserves.has offers.has, preserves.journal _ offers.handedOut⟩

theorem offersTo (preserves : Preserves first second) {point : InjectionPoint} {value : Value}
    (offers : first.OffersTo point value) : second.OffersTo point value := by
  obtain ⟨names, beans, isNames, same, offered⟩ := offers
  exact ⟨names, beans, by rw [preserves.registry]; exact isNames, same,
    offered.imp fun _ _ => preserves.offers⟩

/-- What an older bean holds can still be had after requests. -/
theorem accounts (preserves : Preserves first second) {definition : Definition} {bean : Bean}
    (grows : first.heap.Grows second.heap) (accounts : first.Accounts definition bean) :
    second.Accounts definition bean := by
  obtain ⟨record, contents, isRecord, found, holds⟩ := accounts
  obtain ⟨later, foundLater, arguments, cells⟩ := grows.records record.index contents found
  have inside : record.index < first.heap.contents.size :=
    (Array.getElem?_eq_some_iff.1 found).1
  refine ⟨record, later, isRecord, foundLater, ?_⟩
  refine (holds.mono fun _ _ => preserves.offersTo).fill arguments ?_
  intro name value filled
  rw [cells (Nat.not_le.2 inside)] at filled
  exact .inl filled

end Preserves

/-- A bean that was just committed can be had. -/
theorem has_of_commit {container : Container} {name : String} {definition : Definition}
    (raw : Bean) (registered : container.registry.find? name = some definition) :
    (container.committed name definition raw).Has name raw := by
  cases scope : definition.scope with
  | singleton => exact .cached (keep_singletons_self raw scope)
  | prototype =>
      have stillRegistered :
          (container.committed name definition raw).registry.find? name = some definition := by
        rw [committed_registry]
        exact registered
      exact .prototype stillRegistered scope (by simp [Heap.note])

/-! ## Requests go by steps -/

/-- A request goes by steps and offers the bean that it hands out. -/
def GoesBySteps (before : Container) (name : String) (result : Except BeanError Handout)
    (after : Container) : Prop :=
  before.registry.Numbered → Steps before after ∧
    ∀ handout, result = .ok handout → after.Offers name handout.bean

/-- What was resolved for points was offered to them. -/
theorem Supplied.holds {container : Container} {points : List InjectionPoint} {asked : Asked}
    {supply : Supply} (supplied : Supplied container.registry points asked supply)
    (offers : ∀ name handout, (name, .ok handout) ∈ asked → container.Offers name handout.bean) :
    supply.Holds points container.OffersTo := by
  intro index value found
  obtain ⟨point, member, isAt, answers⟩ := supplied index value found
  obtain ⟨names, beans, isNames, same, answered⟩ := answers
  refine ⟨point, member, isAt, names, beans, isNames, same, answered.imp ?_⟩
  rintro name _ ⟨handout, isAnswer, rfl⟩
  exact offers name handout isAnswer

/-- Finishing a bean in creation is one step, however far it came. -/
theorem Finishing.steps {definition : Definition} {name : String} {raw : Bean}
    {middle : Container} {asked : Asked} {result : Except BeanError Unit} {heap : Heap}
    (numbered : definition.Numbered)
    (registered : middle.registry.find? name = some definition)
    (creating : middle.inCreation.find? name = some raw)
    (offers : ∀ name handout, (name, .ok handout) ∈ asked → middle.Offers name handout.bean)
    (accounts : middle.Accounts definition raw)
    {sees : Asked → Heap → Prop}
    (finishing : Finishing definition name raw sees asked middle result heap) :
    Steps middle (middle.withHeap heap) ∧ (middle.withHeap heap).Accounts definition raw := by
  cases finishing with
  | unresolved => exact ⟨.refl, accounts⟩
  | @run supply _ _ gathers ran =>
      have wires := finish_wires middle.processors definition name raw supply middle.heap
      rw [ran] at wires
      have offered : ∀ {cell point value}, point ∈ definition.fields → point.IsOn cell →
          supply.find? point.index = some value →
            ∃ point ∈ definition.fields, point.IsOn cell ∧ middle.OffersTo point value := by
        intro cell point value member isOn isSupplied
        obtain ⟨other, isField, isAt, offered⟩ :=
          gathers.supplied.holds offers point.index value isSupplied
        have same := numbered.fields other isField point member isAt
        subst same
        exact ⟨other, isField, isOn, offered⟩
      constructor
      · refine .single (.wire registered creating wires.grows ?_)
        intro index contents later found foundLater cell value filled
        rcases wires.cells index contents later found foundLater cell value filled with
          before | ⟨point, member, isOn, isSupplied⟩
        · exact .inl before
        · exact .inr (offered member isOn isSupplied)
      · obtain ⟨record, contents, isRecord, found, holds⟩ := accounts
        obtain ⟨later, foundLater, arguments, _⟩ := wires.grows.records record.index contents found
        have preserves : Preserves middle (middle.withHeap heap) := .withHeap wires.grows
        refine ⟨record, later, isRecord, foundLater, ?_⟩
        refine (holds.fill arguments ?_).mono fun _ _ => preserves.offersTo
        intro cell value filled
        rcases wires.cells _ contents later found foundLater cell value filled with
          before | ⟨point, member, isOn, isSupplied⟩
        · exact .inl before
        · exact .inr (offered member isOn isSupplied)

section Ways

variable {request : Request}
  (each : ∀ name start, Restores start (request name start).2)
  (grows : ∀ name start, Heap.Grows start.heap (request name start).2.heap)
  (goes : ∀ name start,
    GoesBySteps start name (request name start).1 (request name start).2)
include each grows goes

/-- Requests one after the other go by steps, and what they handed out is offered at the
end. -/
theorem Asks.steps {start final : Container} {asked : Asked}
    (numbered : start.registry.Numbered) (asks : Asks request start asked final) :
    Steps start final ∧
      ∀ name handout, (name, .ok handout) ∈ asked → final.Offers name handout.bean := by
  induction asks with
  | nil => exact ⟨.refl, by simp⟩
  | @cons start middle final name result asked answered rest ih =>
      have first := goes name start numbered
      have restores := each name start
      rw [answered] at first restores
      obtain ⟨steps, offered⟩ := ih (by rw [restores.registry]; exact numbered)
      refine ⟨first.1.trans steps, ?_⟩
      intro other handout member
      rcases List.mem_cons.1 member with equal | later
      · cases equal
        have preserves := Preserves.of_restores (rest.restores each) (rest.grows grows)
        exact preserves.offers (first.2 handout rfl)
      · exact offered other handout later

/-- A bean is constructed by steps; if none of its name is in creation, it is entered with
the last of them, and what it holds can be had. -/
theorem Construction.steps {definition : Definition} {name : String} {start built : Container}
    {raw : Bean} (numbered : start.registry.Numbered)
    (registered : start.registry.find? name = some definition)
    (construction : Construction request definition name start raw built) :
    Steps start built ∧ (built.inCreation.find? name = none →
      Steps start ((built.noted (.entered name raw)).enter name raw) ∧
        ((built.noted (.entered name raw)).enter name raw).Accounts definition raw) := by
  cases construction with
  | @intro asked middle supply arguments cells idle asks gathers yields =>
      have stillNumbered : (start.beginConstruction name).registry.Numbered := numbered
      obtain ⟨steps, offers⟩ := asks.steps each grows goes stillNumbered
      have restores := asks.restores each
      have stillRegistered : middle.registry.find? name = some definition := by
        rw [restores.registry]
        exact registered
      have began : Steps start middle := .head (.mark (name :: start.constructing)) steps
      have accounts : definition.Accounts { arguments, cells := Table.ofList cells }
          middle.OffersTo := by
        have suppliedNow : Supplied middle.registry definition.recipe.points asked supply := by
          rw [restores.registry]
          exact gathers.supplied
        exact (numbered name definition registered).accounts_of_yields yields
          (suppliedNow.holds offers)
      constructor
      · exact (began.tail (.spare stillRegistered accounts)).tail
          (.mark (middle.constructing.erase name))
      · intro fresh
        refine ⟨(began.tail (.enter stillRegistered accounts fresh)).tail
          (.mark (middle.constructing.erase name)), ?_⟩
        have entered := (Preserves.entered middle definition arguments cells fresh).trans
          (.mark _ (middle.constructing.erase name))
        refine ⟨_, { arguments, cells := Table.ofList cells }, rfl, ?_,
          accounts.mono fun _ _ => entered.offersTo⟩
        simp [noted, withHeap, Container.enter, endConstruction, Heap.create, Heap.allocate,
          Heap.note]

/-- A bean that was entered is still in creation after it was developed, what it holds can
be had, and everything up to there went by steps. -/
theorem Construction.developed {definition : Definition} {name : String}
    {start built middle : Container} {raw : Bean} {asked : Asked}
    {result : Except BeanError Unit} {heap : Heap} (numbered : start.registry.Numbered)
    (registered : start.registry.find? name = some definition)
    (construction : Construction request definition name start raw built)
    (fresh : built.inCreation.find? name = none)
    (asks : Asks request ((built.noted (.entered name raw)).enter name raw) asked middle)
    {sees : Asked → Heap → Prop}
    (finishing : Finishing definition name raw sees asked middle result heap) :
    Steps start (middle.withHeap heap) ∧ middle.registry.find? name = some definition ∧
      middle.inCreation.find? name = some raw ∧
        (middle.withHeap heap).Accounts definition raw := by
  obtain ⟨entered, accounts⟩ :=
    (construction.steps each grows goes numbered registered).2 fresh
  have sameRegistry : middle.registry = start.registry :=
    (asks.restores each).registry.trans (construction.restores each).registry
  have stillNumbered : ((built.noted (.entered name raw)).enter name raw).registry.Numbered := by
    show built.registry.Numbered
    rw [(construction.restores each).registry]
    exact numbered
  have stillRegistered : middle.registry.find? name = some definition := by
    rw [sameRegistry]
    exact registered
  have creating : middle.inCreation.find? name = some raw := by
    rw [(asks.restores each).inCreation]
    exact Table.find?_insert_self built.inCreation name raw
  obtain ⟨steps, offers⟩ := asks.steps each grows goes stillNumbered
  have asking := Preserves.of_restores (asks.restores each) (asks.grows grows)
  obtain ⟨finished, stillAccounts⟩ := finishing.steps (numbered name definition registered)
    stillRegistered creating offers (asking.accounts (asks.grows grows) accounts)
  exact ⟨(entered.trans steps).trans finished, stillRegistered, creating, stillAccounts⟩

/-- What a request made goes by steps, whichever way it went. -/
theorem Making.steps {definition : Definition} {name : String} {start final : Container}
    {result : Except BeanError Handout} (uncached : start.singletons.find? name = none)
    (registered : start.registry.find? name = some definition)
    (making : Making request definition name start result final) :
    GoesBySteps start name result final := by
  intro numbered
  cases making with
  | busy => exact ⟨.refl, by simp⟩
  | @unconstructed asked middle error idle asks =>
      have stillNumbered : (start.beginConstruction name).registry.Numbered := numbered
      have steps := (asks.steps each grows goes stillNumbered).1
      refine ⟨?_, by simp⟩
      exact (ReflTransGen.head (.mark (name :: start.constructing)) steps).tail
        (.mark (middle.constructing.erase name))
  | refused construction =>
      exact ⟨(construction.steps each grows goes numbered registered).1, by simp⟩
  | @shared raw present built construction pending =>
      have steps := (construction.steps each grows goes numbered registered).1
      refine ⟨steps.tail (.handOut (.creating pending)), ?_⟩
      intro handout equal
      cases equal
      exact ⟨.creating pending, by simp⟩
  | abandoned construction fresh asks finishing =>
      obtain ⟨steps, _, creating, _⟩ :=
        construction.developed each grows goes numbered registered fresh asks finishing
      exact ⟨steps.tail (.abandon creating), by simp⟩
  | @finished raw built middle asked heap construction fresh asks finishing =>
      obtain ⟨steps, stillRegistered, creating, accounts⟩ :=
        construction.developed each grows goes numbered registered fresh asks finishing
      have stillUncached : middle.singletons.find? name = none :=
        asks.uncached each (construction.uncached each uncached)
      have committed : Steps start
          ((middle.withHeap heap).committed name definition raw) :=
        steps.tail (.commit stillRegistered stillUncached creating accounts)
      have has : ((middle.withHeap heap).committed name definition raw).Has name raw :=
        has_of_commit raw stillRegistered
      refine ⟨committed.tail (.handOut has), ?_⟩
      intro handout equal
      cases equal
      exact ⟨(Preserves.noted _ _).has has, by simp⟩

/-- However it is answered, a request goes by steps. -/
theorem Answering.steps {name : String} {start final : Container}
    {result : Except BeanError Handout} (answering : Answering request name start result final) :
    GoesBySteps start name result final := by
  cases answering with
  | cached found =>
      intro _
      refine ⟨.single (.handOut (.cached found)), ?_⟩
      intro handout equal
      cases equal
      exact ⟨.cached found, by simp⟩
  | unknown => exact fun _ => ⟨.refl, by simp⟩
  | made uncached registered making => exact making.steps each grows goes uncached registered

end Ways

/-- Every request goes by steps, and offers the bean that it hands out. -/
theorem request_steps (name : String) (start : Container) :
    GoesBySteps start name (request name start).1 (request name start).2 := by
  rw [request_apply]
  refine requestWithin_induct (motive := fun name start => GoesBySteps start name)
    ?_ ?_ _ name start
  · exact fun _ _ _ => ⟨.refl, by simp⟩
  · intro allowance goes name start result final answering
    exact answering.steps (requestWithin_restores allowance) (requestWithin_grows allowance) goes

/-- Requests made by an operation go by steps. -/
theorem Asks.steps_of_request {start final : Container} {asked : Asked}
    (numbered : start.registry.Numbered) (asks : Asks request start asked final) :
    Steps start final :=
  (asks.steps request_restores request_grows request_steps numbered).1

end Container
end BeanContainer
