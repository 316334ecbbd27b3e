import BeanContainer.Proofs.Heap.Filling
import BeanContainer.Proofs.Request.Growth
import BeanContainer.Proofs.Request.Resolvable

/-!
# Consistent containers

While requests are answered without failures, the container is consistent: cached beans are
complete, beans in creation are those of their definitions, and no two names share a record.  A
bean is complete if it is wired to the singletons that the container owns, cached or in creation,
and if whatever its name depends on is covered: it is owned, or it is a prototype all of whose own
dependencies are covered.
-/

namespace BeanContainer

/-- The event tells that a recipe made a bean for the name. -/
def Event.constructs (name : String) : Event → Bool
  | .constructed other _ _ => other = name
  | .created .. | .entered .. | .resolved .. | .wired .. | .inspected .. | .named ..
  | .acquainted .. | .before .. | .started .. | .after .. | .committed .. | .abandoned ..
  | .handedOut .. | .notified .. | .destroyed .. => false

/-- How many beans were made for the name. -/
def Heap.constructions (heap : Heap) (name : String) : Nat :=
  heap.journal.toList.countP (·.constructs name)

theorem Heap.constructions_note (heap : Heap) (event : Event) (name : String) :
    (heap.note event).constructions name =
      heap.constructions name + if event.constructs name then 1 else 0 := by
  simp [constructions, note, List.countP_append, List.countP_cons]

/-- Nothing but a step of a request makes a bean of a definition. -/
theorem Heap.Extends.constructions {fills : Nat → Prop} {before after : Heap}
    (extends_ : Heap.Extends fills (fun event => ¬ event.IsOfRequest) before after)
    (name : String) : after.constructions name = before.constructions name := by
  obtain ⟨events, journal, inner⟩ := extends_.journal
  have none : events.countP (·.constructs name) = 0 := by
    refine List.countP_eq_zero.2 ?_
    intro event member
    have isInner := inner event member
    cases event with
    | constructed other definition bean => exact absurd trivial isInner
    | _ => exact Bool.false_ne_true
  rw [Heap.constructions, journal, List.countP_append, none]
  rfl

/-- A bean is made for one name. -/
theorem Heap.constructions_create (heap : Heap) (type : TypeName) (arguments : List Value)
    (cells : List (String × Value)) (name : String) (definition : Definition) (bean : Bean)
    (other : String) :
    ((heap.create type arguments cells).2.note (.constructed name definition bean)).constructions
      other = heap.constructions other + if name = other then 1 else 0 := by
  have created : heap.Continues (heap.create type arguments cells).2 :=
    .create _ _ _ _ fun _ => not_false
  rw [constructions_note, created.constructions]
  simp [Event.constructs]

namespace Container

/-- A cycle of dependencies leads from the name back to it. -/
def OnCycle (container : Container) (name : String) : Prop :=
  Relation.TransGen container.registry.DependsOn name name

/-- The bean is cached under the name or in creation for it. -/
def Owns (container : Container) (name : String) (bean : Bean) : Prop :=
  container.singletons.find? name = some bean ∨ container.inCreation.find? name = some bean

/-- The bean may be injected for the name: it is of the registered type, its callback does not
fail, and for a singleton it is the bean that is owned. -/
structure Provides (base container : Container) (name : String) (bean : Bean) : Prop where
  types : base.registry.Types name bean
  harmless : bean.Harmless
  owns : base.IsSingleton name → container.Owns name bean

/-- Owned singletons are owned ever after. -/
def Keeps (base before after : Container) : Prop :=
  ∀ name bean, base.IsSingleton name → before.Owns name bean → after.Owns name bean

/-- The bean of the name exists: it is an owned singleton, or whatever the prototype depends on
is covered. -/
inductive Covered (base container : Container) : String → Prop
  | owned {name : String} {bean : Bean} (singleton : base.IsSingleton name)
      (owns : container.Owns name bean) : Covered base container name
  | prototype {name : String} (isPrototype : base.IsPrototype name)
      (each : ∀ next, base.registry.DependsOn name next → Covered base container next) :
      Covered base container name

section Keeps

variable {base first second third : Container}

theorem Keeps.refl (base container : Container) : Keeps base container container :=
  fun _ _ _ => id

theorem Keeps.trans (one : Keeps base first second) (two : Keeps base second third) :
    Keeps base first third :=
  fun name bean singleton owns => two name bean singleton (one name bean singleton owns)

theorem Keeps.provides (keeps : Keeps base first second) (name : String) (bean : Bean)
    (provides : Provides base first name bean) : Provides base second name bean :=
  ⟨provides.types, provides.harmless,
    fun singleton => keeps name bean singleton (provides.owns singleton)⟩

theorem Covered.mono (keeps : Keeps base first second) {name : String}
    (covered : Covered base first name) : Covered base second name := by
  induction covered with
  | owned singleton owns => exact .owned singleton (keeps _ _ singleton owns)
  | prototype isPrototype _ ih => exact .prototype isPrototype ih

/-- A bean that is entered takes the place of no other. -/
theorem Keeps.enter {container : Container} {name : String} {raw : Bean}
    (fresh : container.inCreation.find? name = none) :
    Keeps base container (container.enter name raw) := by
  intro other bean _ owns
  rcases owns with cached | creating
  · exact .inl cached
  · exact .inr (Table.find?_insert_of_absent raw fresh creating)

/-- A singleton in creation is cached when it is finished. -/
theorem Keeps.finish {container : Container} {name : String} {raw : Bean} {definition : Definition}
    (registered : base.registry.find? name = some definition)
    (uncached : container.singletons.find? name = none)
    (creating : container.inCreation.find? name = some raw) :
    Keeps base container ((container.leave name).keep definition name raw) := by
  intro other bean singleton owns
  rcases owns with cached | pending
  · exact .inl (keep_singletons_of_uncached uncached cached)
  · by_cases same : other = name
    · subst same
      rw [creating] at pending
      cases pending
      obtain ⟨known, isKnown, scope⟩ := singleton
      rw [registered] at isKnown
      cases isKnown
      exact .inl (keep_singletons_self raw scope)
    · refine .inr ?_
      rw [keep_inCreation]
      exact (Table.find?_erase_of_ne _ same).trans pending

/-- What is owned once a bean was finished was owned before. -/
theorem owns_of_finish {container : Container} {name other : String} {raw bean : Bean}
    {definition : Definition} (creating : container.inCreation.find? name = some raw)
    (owns : ((container.leave name).keep definition name raw).Owns other bean) :
    container.Owns other bean := by
  rcases owns with cached | pending
  · rcases of_keep_singletons cached with ⟨rfl, rfl⟩ | before
    · exact .inr creating
    · exact .inl before
  · rw [keep_inCreation] at pending
    exact .inr (Table.find?_erase_eq_some_iff.1 pending).2

end Keeps

/-! ## Complete beans -/

/-- The record of the name is wired, and all that its name depends on exists. -/
structure Complete (base container : Container) (definition : Definition) (name : String)
    (record : Record) : Prop where
  type : record.type = definition.type
  harmless : (Bean.plain record).Harmless
  inside : record.index < container.heap.contents.size
  wired : ∀ place, definition.IsWired base.registry base.properties (Provides base container)
    (container.heap.read record) place
  covered : ∀ next, base.registry.DependsOn name next → Covered base container next

/-- A record is read at all places as before unless it may have been filled. -/
theorem at?_of_extends {fills : Nat → Prop} {adds : Event → Prop} {before after : Heap}
    {record : Record} (extended : Heap.Extends fills adds before after)
    (inside : record.index < before.contents.size) (untouched : ¬ fills record.index)
    (place : Place) : (after.read record).at? place = (before.read record).at? place := by
  cases place with
  | argument index =>
      have same := extended.read_arguments inside
      exact congrArg (fun arguments : List Value => arguments[index]?) same
  | cell name =>
      have same := extended.read_cells inside untouched
      exact congrArg (fun cells : Table String Value => cells.find? name) same

/-- A complete bean stays so while its cells are left alone and singletons are kept. -/
theorem Complete.mono {base before after : Container} {definition : Definition} {name : String}
    {record : Record} {fills : Nat → Prop} {adds : Event → Prop}
    (complete : Complete base before definition name record) (keeps : Keeps base before after)
    (extended : Heap.Extends fills adds before.heap after.heap) (untouched : ¬ fills record.index) :
    Complete base after definition name record where
  type := complete.type
  harmless := complete.harmless
  inside := Nat.lt_of_lt_of_le complete.inside extended.size_le
  wired place := (complete.wired place).mono keeps.provides
    (at?_of_extends extended complete.inside untouched place)
  covered next depends := (complete.covered next depends).mono keeps

/-! ## Consistency -/

/-- The container has the configuration of the base, its cached beans are complete, its beans in
creation are those of their definitions, and no two names share a record. -/
structure Consistent (base container : Container) : Prop where
  registry : container.registry = base.registry
  properties : container.properties = base.properties
  processors : container.processors = base.processors
  behaviours : container.heap.behaviours = base.heap.behaviours
  harmless : base.HasOriginals → container.heap.Harmless
  cached : ∀ name bean, container.singletons.find? name = some bean → ∃ definition record,
    base.registry.find? name = some definition ∧ definition.scope = .singleton ∧
      container.casts.find? name = some definition.casts ∧ bean = .plain record ∧
        Complete base container definition name record
  creating : ∀ name bean, container.inCreation.find? name = some bean → ∃ definition record,
    base.registry.find? name = some definition ∧ bean = .plain record ∧
      record.type = definition.type ∧ bean.Harmless ∧
        record.index < container.heap.contents.size
  apart : ∀ name other record second, container.Owns name (.plain record) →
    container.Owns other (.plain second) → record.index = second.index → name = other

namespace Consistent

variable {base container : Container}

/-- Owned beans are records of the heap. -/
theorem inside (consistent : Consistent base container) {name : String} {record : Record}
    (owns : container.Owns name (.plain record)) : record.index < container.heap.contents.size := by
  rcases owns with cached | creating
  · obtain ⟨_, _, _, _, _, same, complete⟩ := consistent.cached name _ cached
    cases same
    exact complete.inside
  · obtain ⟨_, _, _, same, _, _, inside⟩ := consistent.creating name _ creating
    cases same
    exact inside

/-- The marks of constructors do not matter, and neither does a harmless heap that was extended
without touching cached beans. -/
theorem extend (consistent : Consistent base container) {heap : Heap} {fills : Nat → Prop}
    {adds : Event → Prop} (extended : Heap.Extends fills adds container.heap heap)
    (behaviours : heap.behaviours = container.heap.behaviours)
    (harmless : base.HasOriginals → heap.Harmless)
    (untouched : ∀ name record, container.singletons.find? name = some (.plain record) →
      ¬ fills record.index) (constructing : List String) :
    Consistent base { container with heap, constructing } where
  registry := consistent.registry
  properties := consistent.properties
  processors := consistent.processors
  behaviours := behaviours.trans consistent.behaviours
  harmless := harmless
  cached name bean found := by
    obtain ⟨definition, record, registered, scope, casts, rfl, complete⟩ :=
      consistent.cached name bean found
    refine ⟨definition, record, registered, scope, casts, rfl, ?_⟩
    exact complete.mono (Keeps.refl base container) extended (untouched name record found)
  creating name bean found := by
    obtain ⟨definition, record, registered, rfl, type, isHarmless, inside⟩ :=
      consistent.creating name bean found
    exact ⟨definition, record, registered, rfl, type, isHarmless,
      Nat.lt_of_lt_of_le inside extended.size_le⟩
  apart := consistent.apart

theorem noted (consistent : Consistent base container) (event : Event) :
    Consistent base (container.noted event) := by
  have extended : Heap.Extends (fun _ => False) (fun _ => True) container.heap
      (container.heap.note event) := .note _ trivial
  exact consistent.extend extended rfl
    (fun originals => (consistent.harmless originals).of_sameChains (.note _ _))
    (fun _ _ _ => not_false) container.constructing

/-- A record that no name owns yet is entered for a name. -/
theorem enter (consistent : Consistent base container) {name : String} {definition : Definition}
    {record : Record} (registered : base.registry.find? name = some definition)
    (fresh : container.inCreation.find? name = none) (type : record.type = definition.type)
    (harmless : (Bean.plain record).Harmless)
    (inside : record.index < container.heap.contents.size)
    (isNew : ∀ other second, container.Owns other (.plain second) →
      record.index ≠ second.index) :
    Consistent base (container.enter name (.plain record)) where
  registry := consistent.registry
  properties := consistent.properties
  processors := consistent.processors
  behaviours := consistent.behaviours
  harmless := consistent.harmless
  cached other bean found := by
    obtain ⟨known, owned, isKnown, scope, casts, rfl, complete⟩ :=
      consistent.cached other bean found
    have extended : Heap.Extends (fun _ => False) (fun _ => True) container.heap container.heap :=
      .refl _
    exact ⟨known, owned, isKnown, scope, casts, rfl,
      complete.mono (.enter fresh) extended not_false⟩
  creating other bean found := by
    rcases Table.find?_insert_eq_some_iff.1 found with ⟨rfl, rfl⟩ | ⟨_, before⟩
    · exact ⟨definition, record, registered, rfl, type, harmless, inside⟩
    · exact consistent.creating other bean before
  apart first other one two ownsOne ownsTwo same := by
    have before : ∀ {other : String} {second : Record},
        (container.enter name (.plain record)).Owns other (.plain second) →
          other = name ∧ second = record ∨ container.Owns other (.plain second) := by
      intro other second owns
      rcases owns with cached | creating
      · exact .inr (.inl cached)
      · rcases Table.find?_insert_eq_some_iff.1 creating with ⟨isName, isRecord⟩ | ⟨_, before⟩
        · cases isRecord
          exact .inl ⟨isName, rfl⟩
        · exact .inr (.inr before)
    rcases before ownsOne with ⟨rfl, rfl⟩ | ownedOne
    · rcases before ownsTwo with ⟨rfl, _⟩ | ownedTwo
      · rfl
      · exact absurd same (isNew other two ownedTwo)
    · rcases before ownsTwo with ⟨rfl, rfl⟩ | ownedTwo
      · exact absurd same.symm (isNew first one ownedOne)
      · exact consistent.apart first other one two ownedOne ownedTwo same

/-- A complete bean is finished. -/
theorem finish (consistent : Consistent base container) {name : String} {definition : Definition}
    {record : Record} (registered : base.registry.find? name = some definition)
    (uncached : container.singletons.find? name = none)
    (creating : container.inCreation.find? name = some (.plain record))
    (complete : Complete base container definition name record) :
    Consistent base ((container.leave name).keep definition name (.plain record)) where
  registry := (keep_registry _ _ _ _).trans consistent.registry
  properties := (keep_properties _ _ _ _).trans consistent.properties
  processors := (keep_processors _ _ _ _).trans consistent.processors
  behaviours := by
    rw [keep_heap]
    exact consistent.behaviours
  harmless := by
    rw [keep_heap]
    exact consistent.harmless
  cached other bean found := by
    have keeps : Keeps base container
        ((container.leave name).keep definition name (.plain record)) :=
      .finish registered uncached creating
    have extended : Heap.Extends (fun _ => False) (fun _ => True) container.heap
        ((container.leave name).keep definition name (.plain record)).heap := by
      rw [keep_heap]
      exact .refl _
    by_cases same : other = name
    · subst same
      rcases of_keep_singletons found with ⟨_, rfl⟩ | before
      · have stillUncached : (container.leave other).singletons.find? other = none := uncached
        have scope := scope_of_keep stillUncached found
        exact ⟨definition, record, registered, scope, keep_casts_self _ scope, rfl,
          complete.mono keeps extended not_false⟩
      · rw [show container.singletons.find? other = some bean from before] at uncached
        cases uncached
    · rcases of_keep_singletons found with ⟨isName, _⟩ | before
      · exact absurd isName same
      obtain ⟨known, owned, isKnown, scope, casts, rfl, isComplete⟩ :=
        consistent.cached other bean before
      refine ⟨known, owned, isKnown, scope, ?_, rfl, isComplete.mono keeps extended not_false⟩
      exact (keep_casts_of_ne same).trans casts
  creating other bean found := by
    rw [keep_inCreation] at found
    rw [keep_heap]
    exact consistent.creating other bean (Table.find?_erase_eq_some_iff.1 found).2
  apart first other one two ownsOne ownsTwo :=
    consistent.apart first other one two (owns_of_finish creating ownsOne)
      (owns_of_finish creating ownsTwo)

end Consistent

/-! ## How often beans are made -/

/-- A bean is cached under the name or in creation for it. -/
def IsOwned (container : Container) (name : String) : Prop :=
  container.singletons.find? name ≠ none ∨ container.inCreation.find? name ≠ none

instance (container : Container) (name : String) : Decidable (container.IsOwned name) :=
  inferInstanceAs (Decidable (_ ∨ _))

/-- For each singleton that lies on no cycle one bean was made if the container owns one, and
none if it does not. -/
def Counted (base container : Container) : Prop :=
  ∀ name, base.IsSingleton name → ¬ base.OnCycle name →
    container.heap.constructions name =
      base.heap.constructions name + if container.IsOwned name then 1 else 0

theorem isOwned_iff {container : Container} {name : String} :
    container.IsOwned name ↔ ∃ bean, container.Owns name bean := by
  simp [IsOwned, Owns, Option.ne_none_iff_exists', exists_or]

/-- Finishing a bean leaves the singletons that are owned as they were. -/
theorem isOwned_finish {base container : Container} {name other : String} {raw : Bean}
    {definition : Definition} (registered : base.registry.find? name = some definition)
    (uncached : container.singletons.find? name = none)
    (creating : container.inCreation.find? name = some raw) (singleton : base.IsSingleton other) :
    ((container.leave name).keep definition name raw).IsOwned other ↔ container.IsOwned other := by
  rw [isOwned_iff, isOwned_iff]
  constructor
  · rintro ⟨bean, owns⟩
    exact ⟨bean, owns_of_finish creating owns⟩
  · rintro ⟨bean, owns⟩
    exact ⟨bean, Keeps.finish registered uncached creating other bean singleton owns⟩

/-- Counts are kept as long as nothing is made and the same singletons are owned. -/
theorem Counted.congr {base before after : Container} (counted : Counted base before)
    (constructions : ∀ name, after.heap.constructions name = before.heap.constructions name)
    (owned : ∀ name, base.IsSingleton name → (after.IsOwned name ↔ before.IsOwned name)) :
    Counted base after := by
  intro name singleton offCycle
  rw [constructions, counted name singleton offCycle]
  exact congrArg _ (if_congr (owned name singleton) rfl rfl).symm

/-- Only the construction of a bean is counted. -/
theorem Counted.noted {base container : Container} (counted : Counted base container)
    {event : Event} (quiet : ∀ name, event.constructs name = false) :
    Counted base (container.noted event) := by
  refine counted.congr ?_ fun _ _ => Iff.rfl
  intro name
  refine (container.heap.constructions_note event name).trans ?_
  rw [quiet]
  rfl

end Container
end BeanContainer
