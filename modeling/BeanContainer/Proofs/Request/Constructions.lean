import BeanContainer.Proofs.Request.Consistency

/-!
# How often a bean is constructed

While a name is requested beans are constructed only for names that dependencies lead to, and
never for one that is cached or constructing.  If no bean is given up, this happens once for each
singleton, apart from the time in which the bean is in creation: then it may happen again, if a
cycle of dependencies leads back to the name.
-/

namespace BeanContainer

theorem Event.constructs_iff {event : Event} {name : String} :
    event.constructs name = true ↔ ∃ definition bean, event = .constructed name definition bean := by
  cases event with
  | constructed other definition bean => simp [constructs]
  | _ => simp [constructs]

namespace Heap.Notes

variable {first second : Heap} {event other : Event}

theorem irrefl (noted : first.Notes first event) : False := by
  have same : Extends (fun _ => False) (fun _ => False) first first := .refl first
  exact noted.of_extends same

theorem of_note (noted : first.Notes (first.note other) event) : event = other := by
  have alone : Extends (fun _ => False) (· = other) first (first.note other) := .note _ rfl
  exact noted.of_extends alone

/-- What was noted before one more event. -/
theorem before_note (noted : first.Notes (second.note other) event)
    (extended : first.journal.toList <+: second.journal.toList) (differs : event ≠ other) :
    first.Notes second event := by
  have alone : Extends (fun _ => False) (· = other) second (second.note other) := .note _ rfl
  refine (noted.split extended alone.journal_isPrefix).resolve_right ?_
  exact fun last => differs last.of_note

end Heap.Notes

namespace Container

open Running Relation

/-! ## For which names beans are constructed -/

/-- Dependencies lead from the name to the owner, which is neither cached nor constructing. -/
structure Reached (start : Container) (name owner : String) : Prop where
  reaches : start.registry.Reaches name owner
  uncached : start.singletons.find? owner = none
  idle : owner ∉ start.constructing

namespace Reached

variable {start middle : Container} {name next owner : String}

/-- What is reached after some requests was reached before them. -/
theorem before (restores : Restores start middle) (reached : middle.Reached name owner) :
    start.Reached name owner where
  reaches := by
    rw [← restores.registry]
    exact reached.reaches
  uncached := by
    cases found : start.singletons.find? owner with
    | none => rfl
    | some bean =>
        have retained := (restores.retains owner bean found).1
        rw [reached.uncached] at retained
        cases retained
  idle := by
    rw [← restores.constructing]
    exact reached.idle

theorem head (reached : start.Reached next owner) (depends : start.registry.DependsOn name next) :
    start.Reached name owner :=
  ⟨reached.reaches.head depends, reached.uncached, reached.idle⟩

end Reached

section Ways

variable {request : Request}
  (each : ∀ name start, Restores start (request name start).2)
  (grows : ∀ name start, Heap.Grows start.heap (request name start).2.heap)
  (reaching : ∀ (name : String) (start : Container) owner definition bean, start.heap.Notes (request name start).2.heap
    (.constructed owner definition bean) → start.Reached name owner)
include each grows reaching

theorem Asks.reaches {start final : Container} {asked : Asked} {owner : String}
    {definition : Definition} {bean : Bean} (asks : Asks request start asked final)
    (constructed : start.heap.Notes final.heap (.constructed owner definition bean)) :
    ∃ entry ∈ asked, start.Reached entry.1 owner := by
  induction asks with
  | nil => exact constructed.irrefl.elim
  | @cons start middle final name result asked answered rest ih =>
      have first := reaching name start owner definition bean
      have growing := grows name start
      have restores := each name start
      rw [answered] at first growing restores
      rcases constructed.split growing.journal_isPrefix (rest.grows grows).journal_isPrefix with
        early | late
      · exact ⟨_, List.mem_cons_self, first early⟩
      · obtain ⟨entry, member, reached⟩ := ih late
        exact ⟨entry, List.mem_cons_of_mem _ member, reached.before restores⟩

/-- While a bean is constructed, others are for names that its arguments lead to. -/
theorem Construction.reaches {definition other : Definition} {name owner : String}
    {start built : Container} {raw bean : Bean}
    (construction : Construction request definition name start raw built)
    (uncached : start.singletons.find? name = none)
    (registered : start.registry.find? name = some definition)
    (constructed : start.heap.Notes built.heap (.constructed owner other bean)) :
    start.Reached name owner := by
  cases construction with
  | @intro asked middle supply arguments cells idle asks gathers yields =>
      have own : Heap.Extends (fun _ => False)
          (fun event => ∀ owner other bean, event = .constructed owner other bean → owner = name)
          middle.heap ((middle.heap.create definition.type arguments cells).2.note
            (.constructed name definition
              (middle.heap.create definition.type arguments cells).1)) := by
        refine .trans (.create _ _ _ _ (by simp)) (.note _ ?_)
        rintro owner other bean same
        cases same
        rfl
      rcases constructed.split (asks.grows grows).journal_isPrefix own.journal_isPrefix with
        early | late
      · obtain ⟨entry, member, reached⟩ := asks.reaches each grows reaching early
        have depends : start.registry.DependsOn name entry.1 :=
          .inl ⟨definition, registered, gathers.leadsTo member⟩
        have idleBefore : owner ∉ start.constructing :=
          fun constructing => reached.idle (List.mem_cons_of_mem _ constructing)
        exact .head ⟨reached.reaches, reached.uncached, idleBefore⟩ depends
      · rw [late.of_extends own owner other bean rfl]
        exact ⟨.refl, uncached, idle⟩

/-- While the fields of a bean are resolved, beans are constructed for names that they lead
to. -/
theorem Construction.reaches_entered {definition other : Definition} {name owner : String}
    {start built middle : Container} {raw bean : Bean} {asked : Asked}
    {result : Except BeanError Unit} {heap : Heap}
    (construction : Construction request definition name start raw built)
    (registered : start.registry.find? name = some definition)
    (asks : Asks request ((built.noted (.entered name raw)).enter name raw) asked middle)
    {sees : Asked → Heap → Prop}
    (finishing : Finishing definition name raw sees asked middle result heap)
    (constructed : (built.noted (.entered name raw)).heap.Notes middle.heap
      (.constructed owner other bean)) :
    ∃ next, start.registry.DependsOn name next ∧ start.Reached next owner := by
  have entered : Restores start (built.noted (.entered name raw)) :=
    (construction.restores each).trans (.noted _ _)
  obtain ⟨entry, member, reached⟩ := asks.reaches each grows reaching constructed
  have reachedBefore : start.Reached entry.1 owner :=
    .before entered ⟨reached.reaches, reached.uncached, reached.idle⟩
  have sameRegistry : middle.registry = start.registry :=
    (asks.restores each).registry.trans entered.registry
  refine ⟨entry.1, .inr ⟨definition, registered, ?_⟩, reachedBefore⟩
  rw [← sameRegistry]
  cases finishing with
  | unresolved gathers => exact gathers.leadsTo member
  | run gathers => exact gathers.leadsTo member

/-- All beans that are constructed while one is developed are for names that are reached. -/
theorem Construction.reaches_developing {definition other : Definition} {name owner : String}
    {start built middle : Container} {raw bean : Bean} {asked : Asked}
    {result : Except BeanError Unit} {heap : Heap}
    (construction : Construction request definition name start raw built)
    (uncached : start.singletons.find? name = none)
    (registered : start.registry.find? name = some definition)
    (asks : Asks request ((built.noted (.entered name raw)).enter name raw) asked middle)
    {sees : Asked → Heap → Prop}
    (finishing : Finishing definition name raw sees asked middle result heap)
    (constructed : start.heap.Notes heap (.constructed owner other bean)) :
    start.Reached name owner := by
  have asking := asks.grows grows
  have wired := finishing.wires
  have noted : built.heap.Grows (built.noted (.entered name raw)).heap := .note _ _
  have built := (construction.grows grows).1
  rcases constructed.split (built.trans (noted.trans asking)).journal_isPrefix
    wired.journal_isPrefix with early | late
  · rcases early.split built.journal_isPrefix (noted.trans asking).journal_isPrefix with
      before | entered
    · exact construction.reaches each grows reaching uncached registered before
    · rcases entered.split noted.journal_isPrefix asking.journal_isPrefix with isEntered | later
      · cases isEntered.of_note
      · obtain ⟨next, depends, reached⟩ :=
          construction.reaches_entered each grows reaching registered asks finishing later
        exact reached.head depends
  · exact absurd trivial (late.of_extends wired)

theorem Making.reaches {definition other : Definition} {name owner : String}
    {start final : Container} {bean : Bean} {result : Except BeanError Handout}
    (uncached : start.singletons.find? name = none)
    (registered : start.registry.find? name = some definition)
    (making : Making request definition name start result final)
    (constructed : start.heap.Notes final.heap (.constructed owner other bean)) :
    start.Reached name owner := by
  cases making with
  | busy => exact constructed.irrefl.elim
  | unconstructed idle asks spoiled =>
      obtain ⟨entry, member, reached⟩ := asks.reaches each grows reaching constructed
      have leads : ∃ point ∈ definition.recipe.points,
          point.LeadsTo start.registry entry.1 := by
        cases spoiled with
        | unresolved gathers => exact gathers.leadsTo member
        | refused gathers => exact gathers.leadsTo member
      have idleBefore : owner ∉ start.constructing :=
        fun constructing => reached.idle (List.mem_cons_of_mem _ constructing)
      exact .head ⟨reached.reaches, reached.uncached, idleBefore⟩
        (.inl ⟨definition, registered, leads⟩)
  | refused construction =>
      exact construction.reaches each grows reaching uncached registered constructed
  | shared construction =>
      have before := constructed.before_note (construction.grows grows).1.journal_isPrefix (by simp)
      exact construction.reaches each grows reaching uncached registered before
  | abandoned construction _ asks finishing =>
      have developing := construction.developing grows asks finishing
      have before := constructed.before_note developing.journal_isPrefix (by simp)
      exact construction.reaches_developing each grows reaching uncached registered asks finishing
        before
  | @finished raw _ _ _ _ construction _ asks finishing =>
      rw [finished_heap] at constructed
      have developing := construction.developing grows asks finishing
      have committed := developing.trans (.note _ (.committed name raw))
      have before := (constructed.before_note committed.journal_isPrefix (by simp)).before_note
        developing.journal_isPrefix (by simp)
      exact construction.reaches_developing each grows reaching uncached registered asks finishing
        before

theorem Answering.reaches {definition : Definition} {name owner : String}
    {start final : Container} {bean : Bean} {result : Except BeanError Handout}
    (answering : Answering request name start result final)
    (constructed : start.heap.Notes final.heap (.constructed owner definition bean)) :
    start.Reached name owner := by
  cases answering with
  | cached => cases constructed.of_note
  | unknown => exact constructed.irrefl.elim
  | made uncached registered making =>
      exact making.reaches each grows reaching uncached registered constructed

end Ways

/-- While a name is requested, beans are constructed for names that are reached. -/
theorem requestWithin_reaches (allowance : Nat) (name : String) (start : Container)
    (owner : String) (definition : Definition) (bean : Bean) :
    start.heap.Notes (requestWithin allowance name start).2.heap
      (.constructed owner definition bean) → start.Reached name owner := by
  refine requestWithin_induct (motive := fun name start _ final =>
    ∀ owner definition bean, start.heap.Notes final.heap (.constructed owner definition bean) →
      start.Reached name owner) ?_ ?_ allowance name start owner definition bean
  · exact fun _ _ _ _ _ constructed => constructed.irrefl.elim
  · intro allowance reaching name start result final answering owner definition bean constructed
    exact answering.reaches (requestWithin_restores allowance) (requestWithin_grows allowance)
      reaching constructed

/-! ## How often a bean is constructed for a name -/

/-- The constructions of beans for the name among the events. -/
def constructionsOf (name : String) (events : List Event) : List Event :=
  events.filter (·.constructs name)

theorem constructionsOf_append (name : String) (events later : List Event) :
    constructionsOf name (events ++ later) =
      constructionsOf name events ++ constructionsOf name later :=
  List.filter_append events later

/-- Entering and committing a bean is no construction. -/
theorem constructionsOf_around (name : String) (bean : Bean) (before during after : List Event) :
    constructionsOf name (before ++ .entered name bean :: (during ++ .committed name bean :: after)) =
      constructionsOf name before ++
        (constructionsOf name during ++ constructionsOf name after) := by
  simp [constructionsOf, Event.constructs]

/-- Events among which no bean is constructed for the name. -/
theorem constructionsOf_eq_nil {before after : Heap} {name : String} {events : List Event}
    (journal : after.journal.toList = before.journal.toList ++ events)
    (none : ∀ definition bean, ¬ before.Notes after (.constructed name definition bean)) :
    constructionsOf name events = [] := by
  refine List.filter_eq_nil_iff.2 ?_
  intro event member constructs
  obtain ⟨definition, bean, rfl⟩ := Event.constructs_iff.1 constructs
  exact none definition bean ⟨events, journal, member⟩

/-- How often a bean was constructed for the name in these events, given the bean that is cached
after them: not at all, or once before this bean was entered.  Besides beans are constructed only
between its being entered and committed, and only if a cycle of dependencies leads back to the
name. -/
inductive ConstructsOnce (registry : Registry) (name : String) (cached : Option Bean) :
    List Event → Prop
  | none {events : List Event} (never : constructionsOf name events = []) :
      ConstructsOnce registry name cached events
  | once {before during after : List Event} {definition : Definition} {bean : Bean}
      (first : constructionsOf name before = [.constructed name definition bean])
      (cycles : constructionsOf name during ≠ [] → TransGen registry.DependsOn name name)
      (never : constructionsOf name after = []) (kept : cached = some bean) :
      ConstructsOnce registry name cached
        (before ++ .entered name bean :: (during ++ .committed name bean :: after))

namespace ConstructsOnce

variable {registry : Registry} {name : String} {cached later : Option Bean}
  {events others : List Event}

/-- Once a bean is cached, no other one is constructed. -/
theorem append (one : ConstructsOnce registry name cached events)
    (two : ConstructsOnce registry name later others)
    (held : cached ≠ Option.none → constructionsOf name others = [])
    (retains : ∀ bean, cached = some bean → later = some bean) :
    ConstructsOnce registry name later (events ++ others) := by
  cases one with
  | none never =>
      cases two with
      | none neverLater =>
          refine .none ?_
          rw [constructionsOf_append, never, neverLater]
          rfl
      | @once before _ _ definition bean first cycles neverLater kept =>
          have firstOfAll : constructionsOf name (events ++ before) =
              [.constructed name definition bean] := by
            rw [constructionsOf_append, never, first]
            rfl
          rw [← List.append_assoc]
          exact .once firstOfAll cycles neverLater kept
  | @once before during after definition bean first cycles never kept =>
      have quiet : constructionsOf name (after ++ others) = [] := by
        rw [constructionsOf_append, never, held (by simp [kept])]
        rfl
      simpa using ConstructsOnce.once first cycles quiet (retains bean kept)

/-- Other events may come first. -/
theorem after (never : constructionsOf name events = [])
    (once : ConstructsOnce registry name cached others) :
    ConstructsOnce registry name cached (events ++ others) := by
  have first : ConstructsOnce registry name Option.none events := .none never
  exact first.append once (by simp) (by simp)

/-- Other events may come last. -/
theorem before (once : ConstructsOnce registry name cached events)
    (never : constructionsOf name others = []) :
    ConstructsOnce registry name cached (events ++ others) :=
  once.append (.none never) (fun _ => never) fun _ => id

end ConstructsOnce

/-- If no bean is given up between the two states, and the name is neither constructing nor in
creation, then a bean is constructed for it once, or not at all. -/
def ConstructsOnceTo (start final : Container) (name : String) : Prop :=
  ∃ events, final.heap.journal.toList = start.heap.journal.toList ++ events ∧
    ((∀ owner bean, .abandoned owner bean ∉ events) → start.IsSingleton name →
      ¬ start.IsMarked name →
        ConstructsOnce start.registry name (final.singletons.find? name) events)

namespace ConstructsOnceTo

variable {start middle final : Container} {name : String}

theorem refl (start : Container) (name : String) : ConstructsOnceTo start start name :=
  ⟨[], by simp, fun _ _ _ => .none rfl⟩

/-- The bean that is constructed in the first part is cached then, and is kept in the second one,
in which no other is constructed. -/
theorem trans (one : ConstructsOnceTo start middle name) (two : ConstructsOnceTo middle final name)
    (registry : middle.registry = start.registry)
    (unmarked : ¬ start.IsMarked name → ¬ middle.IsMarked name)
    (held : middle.singletons.find? name ≠ none → ∀ definition bean,
      ¬ middle.heap.Notes final.heap (.constructed name definition bean))
    (retains : ∀ bean, middle.singletons.find? name = some bean →
      final.singletons.find? name = some bean) : ConstructsOnceTo start final name := by
  obtain ⟨events, journal, first⟩ := one
  obtain ⟨later, journalLater, second⟩ := two
  refine ⟨events ++ later, by rw [journalLater, journal, List.append_assoc], ?_⟩
  intro completes singleton isUnmarked
  have once := first (fun owner bean given => completes owner bean (List.mem_append_left _ given))
    singleton isUnmarked
  have singletonLater : middle.IsSingleton name := by
    rw [IsSingleton, registry]
    exact singleton
  have onceLater := second (fun owner bean given =>
    completes owner bean (List.mem_append_right _ given)) singletonLater (unmarked isUnmarked)
  rw [registry] at onceLater
  exact once.append onceLater (fun cached => constructionsOf_eq_nil journalLater (held cached))
    retains

/-- More may happen without a construction. -/
theorem extend {fills : Nat → Prop} {adds : Event → Prop}
    (once : ConstructsOnceTo start middle name)
    (extended : Heap.Extends fills adds middle.heap final.heap)
    (none : ∀ definition bean, ¬ adds (.constructed name definition bean))
    (retains : ∀ bean, middle.singletons.find? name = some bean →
      final.singletons.find? name = some bean) : ConstructsOnceTo start final name := by
  obtain ⟨events, journal, first⟩ := once
  obtain ⟨later, journalLater, _⟩ := extended.journal
  refine ⟨events ++ later, by rw [journalLater, journal, List.append_assoc], ?_⟩
  intro completes singleton unmarked
  have onceBefore := first (fun owner bean given =>
    completes owner bean (List.mem_append_left _ given)) singleton unmarked
  have quiet : constructionsOf name later = [] := constructionsOf_eq_nil journalLater
    fun definition bean constructed => none definition bean (constructed.of_extends extended)
  exact onceBefore.append (.none quiet) (fun _ => quiet) retains

theorem noted (once : ConstructsOnceTo start middle name) {event : Event}
    (differs : ∀ definition bean, event ≠ .constructed name definition bean) :
    ConstructsOnceTo start (middle.noted event) name := by
  have alone : Heap.Extends (fun _ => False) (· = event) middle.heap (middle.noted event).heap :=
    .note _ rfl
  exact once.extend alone (fun definition bean same => differs definition bean same.symm)
    fun _ => id

end ConstructsOnceTo

section Ways

variable {request : Request}
  (each : ∀ name start, Restores start (request name start).2)
  (grows : ∀ name start, Heap.Grows start.heap (request name start).2.heap)
  (reaching : ∀ (name : String) (start : Container) owner definition bean,
    start.heap.Notes (request name start).2.heap (.constructed owner definition bean) →
      start.Reached name owner)
  (once : ∀ name start target, ConstructsOnceTo start (request name start).2 target)
include each grows reaching once

theorem Asks.constructs_once {start final : Container} {asked : Asked}
    (asks : Asks request start asked final) (name : String) : ConstructsOnceTo start final name := by
  induction asks with
  | nil => exact .refl _ name
  | @cons start middle final other result asked answered rest ih =>
      have first := once other start name
      have restores := each other start
      rw [answered] at first restores
      refine first.trans ih restores.registry ?_ ?_ ?_
      · rw [IsMarked, IsMarked, restores.constructing, restores.inCreation]
        exact id
      · intro cached definition bean constructed
        obtain ⟨entry, _, reached⟩ := rest.reaches each grows reaching constructed
        exact cached reached.uncached
      · exact fun bean found => ((rest.restores each).retains name bean found).1

/-- Beans of other names may be constructed for the arguments of one. -/
theorem Asks.constructs_others {start middle : Container} {asked : Asked} {name target : String}
    (differs : target ≠ name)
    (asks : Asks request (start.beginConstruction name) asked middle) :
    ConstructsOnceTo start middle target := by
  have begins : ConstructsOnceTo start (start.beginConstruction name) target := .refl start target
  refine begins.trans (asks.constructs_once each grows reaching once target) rfl ?_ ?_ ?_
  · rintro unmarked (constructing | creating)
    · rcases List.mem_cons.1 constructing with same | earlier
      · exact differs same
      · exact unmarked (.inl earlier)
    · exact unmarked (.inr creating)
  · intro cached definition bean constructed
    obtain ⟨entry, _, reached⟩ := asks.reaches each grows reaching constructed
    exact cached reached.uncached
  · exact fun bean found => ((asks.restores each).retains target bean found).1

omit once in
/-- The bean is constructed last, and no other one for its name before it. -/
theorem Construction.constructs_own {definition : Definition} {name : String}
    {start built : Container} {raw : Bean}
    (construction : Construction request definition name start raw built) :
    ∃ events, built.heap.journal.toList = start.heap.journal.toList ++ events ∧
      constructionsOf name events = [.constructed name definition raw] := by
  cases construction with
  | @intro asked middle supply arguments cells idle asks gathers yields =>
      obtain ⟨events, journal, _⟩ := (asks.grows grows).journal
      have none : constructionsOf name events = [] := by
        refine constructionsOf_eq_nil journal ?_
        intro definition bean constructed
        obtain ⟨entry, _, reached⟩ := asks.reaches each grows reaching constructed
        exact reached.idle List.mem_cons_self
      refine ⟨events ++ [.created (middle.heap.create definition.type arguments cells).1,
        .constructed name definition (middle.heap.create definition.type arguments cells).1],
        ?_, ?_⟩
      · change middle.heap.journal.toList = start.heap.journal.toList ++ events at journal
        rw [← List.append_assoc, ← journal]
        simp [noted, withHeap, endConstruction, Heap.create, Heap.allocate, Heap.note]
      · rw [constructionsOf_append, none]
        simp [constructionsOf, Event.constructs]

theorem Construction.constructs_others {definition : Definition} {name target : String}
    {start built : Container} {raw : Bean} (differs : target ≠ name)
    (construction : Construction request definition name start raw built) :
    ConstructsOnceTo start built target := by
  cases construction with
  | @intro asked middle supply arguments cells idle asks gathers yields =>
      have asking := asks.constructs_others each grows reaching once differs
      have created : Heap.Extends (fun _ => False) (fun event => ¬ event.IsOfRequest) middle.heap
          (middle.heap.create definition.type arguments cells).2 :=
        .create _ _ _ _ fun _ => not_false
      have made : ConstructsOnceTo start (middle.withHeap
          (middle.heap.create definition.type arguments cells).2) target :=
        asking.extend created (fun _ _ inner => inner trivial) fun _ => id
      have ended : ConstructsOnceTo start ((middle.withHeap
          (middle.heap.create definition.type arguments cells).2).endConstruction name) target :=
        made
      refine ended.noted ?_
      rintro other bean same
      cases same
      exact differs rfl

/-- Beans of other names may be constructed while one is developed. -/
theorem Construction.develops_others {definition : Definition} {name target : String}
    {start built middle : Container} {raw : Bean} {asked : Asked} {heap : Heap}
    {result : Except BeanError Unit} (differs : target ≠ name)
    (construction : Construction request definition name start raw built)
    (asks : Asks request ((built.noted (.entered name raw)).enter name raw) asked middle)
    {sees : Asked → Heap → Prop}
    (finishing : Finishing definition name raw sees asked middle result heap) :
    ConstructsOnceTo start ((middle.withHeap heap).leave name) target := by
  have restores := construction.restores each
  have entered : ConstructsOnceTo start ((built.noted (.entered name raw)).enter name raw) target :=
    (construction.constructs_others each grows reaching once differs).noted (by simp)
  have asking : ConstructsOnceTo start middle target := by
    refine entered.trans (asks.constructs_once each grows reaching once target) restores.registry
      ?_ ?_ ?_
    · rintro unmarked (constructing | creating)
      · refine unmarked (.inl ?_)
        rw [← restores.constructing]
        exact constructing
      · refine unmarked (.inr ?_)
        rw [← restores.inCreation]
        have stillCreating : (built.inCreation.insert name raw).find? target ≠ none := creating
        rw [Table.find?_insert_of_ne _ _ differs] at stillCreating
        exact stillCreating
    · intro cached definition bean constructed
      obtain ⟨entry, _, reached⟩ := asks.reaches each grows reaching constructed
      exact cached reached.uncached
    · exact fun bean found => ((asks.restores each).retains target bean found).1
  exact asking.extend finishing.wires (fun _ _ inner => inner trivial) fun _ => id

omit once in
/-- The bean is constructed and then finished; others of its name are constructed only in between,
if its fields lead back to the name. -/
theorem Construction.finishes_once {definition : Definition} {name : String}
    {start built middle : Container} {raw : Bean} {asked : Asked} {heap : Heap}
    (construction : Construction request definition name start raw built)
    (registered : start.registry.find? name = some definition)
    (asks : Asks request ((built.noted (.entered name raw)).enter name raw) asked middle)
    {sees : Asked → Heap → Prop}
    (finishing : Finishing definition name raw sees asked middle (.ok ()) heap) :
    ConstructsOnceTo start (((((middle.withHeap heap).leave name).keep definition name raw).noted
      (.committed name raw)).noted (.handedOut name raw)) name := by
  obtain ⟨before, journalBefore, first⟩ := construction.constructs_own each grows reaching
  obtain ⟨during, journalDuring, _⟩ := (asks.grows grows).journal
  obtain ⟨last, journalLast, inner⟩ := finishing.wires.journal
  have cycles : constructionsOf name (during ++ last) ≠ [] →
      TransGen start.registry.DependsOn name name := by
    intro constructs
    have lastNone : constructionsOf name last = [] := by
      refine List.filter_eq_nil_iff.2 ?_
      intro event member isConstruction
      obtain ⟨_, _, rfl⟩ := Event.constructs_iff.1 isConstruction
      exact inner _ member trivial
    rw [constructionsOf_append, lastNone, List.append_nil] at constructs
    obtain ⟨event, member⟩ := List.exists_mem_of_ne_nil _ constructs
    obtain ⟨inDuring, isConstruction⟩ := List.mem_filter.1 member
    obtain ⟨other, bean, rfl⟩ := Event.constructs_iff.1 isConstruction
    obtain ⟨next, depends, reached⟩ := construction.reaches_entered each grows reaching registered
      asks finishing ⟨during, journalDuring, inDuring⟩
    exact .head' depends reached.reaches
  refine ⟨before ++ .entered name raw ::
    ((during ++ last) ++ .committed name raw :: [.handedOut name raw]), ?_, ?_⟩
  · rw [finished_heap]
    change middle.heap.journal.toList =
      (built.noted (.entered name raw)).heap.journal.toList ++ during at journalDuring
    rw [noted_journal, journalBefore] at journalDuring
    simp [Heap.note, journalLast, journalDuring]
  · intro _ singleton _
    have scope : definition.scope = .singleton := by
      obtain ⟨known, isKnown, scope⟩ := singleton
      rw [registered] at isKnown
      cases isKnown
      exact scope
    exact .once first cycles (by simp [constructionsOf, Event.constructs])
      (keep_singletons_self raw scope)

theorem Making.constructs_once {definition : Definition} {name : String} {start final : Container}
    {result : Except BeanError Handout} (uncached : start.singletons.find? name = none)
    (registered : start.registry.find? name = some definition)
    (making : Making request definition name start result final) (target : String) :
    ConstructsOnceTo start final target := by
  -- A bean that is in creation or under construction already is not made once more.
  have marked : start.IsMarked target → ∀ {events}, final.heap.journal.toList =
      start.heap.journal.toList ++ events → ConstructsOnceTo start final target :=
    fun isMarked events journal => ⟨events, journal, fun _ _ unmarked => absurd isMarked unmarked⟩
  have growing := making.grows grows
  obtain ⟨events, journal, _⟩ := growing.journal
  by_cases differs : target = name
  · subst differs
    cases making with
    | busy constructing => exact marked (.inl constructing) journal
    | unconstructed idle asks =>
        refine ⟨events, journal, fun _ _ _ => .none (constructionsOf_eq_nil journal ?_)⟩
        intro definition bean constructed
        obtain ⟨entry, _, reached⟩ := asks.reaches each grows reaching constructed
        exact reached.idle List.mem_cons_self
    | refused construction pending =>
        rw [(construction.restores each).inCreation] at pending
        exact marked (.inr (by simp [pending])) journal
    | shared construction pending =>
        rw [(construction.restores each).inCreation] at pending
        exact marked (.inr (by simp [pending])) journal
    | @abandoned raw _ _ _ heap _ construction _ asks finishing =>
        obtain ⟨earlier, journalEarlier, _⟩ :=
          (construction.developing grows asks finishing).journal
        refine ⟨earlier ++ [.abandoned target raw], ?_, ?_⟩
        · rw [noted_journal, ← List.append_assoc, ← journalEarlier]
          rfl
        · exact fun completes => absurd (by simp) (completes target raw)
    | finished construction _ asks finishing =>
        exact construction.finishes_once each grows reaching registered asks finishing
  · cases making with
    | busy => exact .refl start target
    | unconstructed idle asks =>
        have others := asks.constructs_others each grows reaching once differs
        exact others
    | refused construction =>
        exact construction.constructs_others each grows reaching once differs
    | shared construction =>
        exact (construction.constructs_others each grows reaching once differs).noted (by simp)
    | abandoned construction _ asks finishing =>
        exact (construction.develops_others each grows reaching once differs asks
          finishing).noted (by simp)
    | @finished raw built middle asked heap construction _ asks finishing =>
        have developed :=
          construction.develops_others each grows reaching once differs asks finishing
        have kept : ConstructsOnceTo start
            (((middle.withHeap heap).leave name).keep definition name raw) target := by
          have same : Heap.Extends (fun _ => False) (fun _ => False)
              ((middle.withHeap heap).leave name).heap
              (((middle.withHeap heap).leave name).keep definition name raw).heap := by
            rw [keep_heap]
            exact .refl _
          refine developed.extend same (fun _ _ => id) ?_
          intro bean found
          have stillUncached : ((middle.withHeap heap).leave name).singletons.find? name = none :=
            asks.uncached each (construction.uncached each uncached)
          exact keep_singletons_of_uncached stillUncached found
        exact (kept.noted (by simp)).noted (by simp)

theorem Answering.constructs_once {name : String} {start final : Container}
    {result : Except BeanError Handout} (answering : Answering request name start result final)
    (target : String) : ConstructsOnceTo start final target := by
  have same := ConstructsOnceTo.refl start target
  cases answering with
  | cached => exact same.noted (by simp)
  | unknown => exact same
  | made uncached registered making =>
      exact making.constructs_once each grows reaching once uncached registered target

end Ways

/-- While a name is requested, a bean is constructed once for each singleton, or not at all. -/
theorem requestWithin_constructs_once (allowance : Nat) (name : String) (start : Container)
    (target : String) :
    ConstructsOnceTo start (requestWithin allowance name start).2 target := by
  refine requestWithin_induct (motive := fun _ start _ final =>
    ∀ target, ConstructsOnceTo start final target) ?_ ?_ allowance name start target
  · exact fun _ start target => .refl start target
  · intro allowance once name start result final answering target
    exact answering.constructs_once (requestWithin_restores allowance)
      (requestWithin_grows allowance) (requestWithin_reaches allowance) once target

/-- Requests that are made one after the other construct beans for names that are reached. -/
theorem Asks.reaches_of_request {start final : Container} {asked : Asked} {owner : String}
    {definition : Definition} {bean : Bean} (asks : Asks Container.request start asked final)
    (constructed : start.heap.Notes final.heap (.constructed owner definition bean)) :
    ∃ entry ∈ asked, start.Reached entry.1 owner := by
  refine asks.reaches request_restores request_grows ?_ constructed
  intro name start owner definition bean
  rw [request_apply]
  exact requestWithin_reaches _ name start owner definition bean

/-- Requests that are made one after the other construct a bean for each singleton once, or not at
all. -/
theorem Asks.constructs_once_of_request {start final : Container} {asked : Asked}
    (asks : Asks Container.request start asked final) (name : String) :
    ConstructsOnceTo start final name := by
  refine asks.constructs_once request_restores request_grows ?_ ?_ name
  · intro name start owner definition bean
    rw [request_apply]
    exact requestWithin_reaches _ name start owner definition bean
  · intro name start target
    rw [request_apply]
    exact requestWithin_constructs_once _ name start target

end Container
end BeanContainer
