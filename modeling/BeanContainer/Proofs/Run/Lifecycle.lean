import BeanContainer.Proofs.Request.Courses
import BeanContainer.Proofs.Request.Unwired
import BeanContainer.Proofs.Run.Identity
import BeanContainer.Proofs.Run.Processors
import Mathlib.Data.List.Induction

/-!
# The life of each bean in a run

The journal of a run shows one course for each bean that was constructed in it, in the order that
the chain of processors gave at that time.  Beans that are kept are those whose course has come to
its end.  A bean that is made while another one of its name is on its way is not even entered, and
until its fields are resolved a bean stays as its constructor made it.
-/

namespace BeanContainer
namespace Container

/-! ## One bean of a name at a time -/

/-- A bean of the name was entered in these events, and was neither finished nor abandoned. -/
def InProgress (events : List Event) (name : String) : Prop :=
  ∃ present, .entered name present ∈ events ∧ .committed name present ∉ events ∧
    .abandoned name present ∉ events

/-- Entered beans are in creation until they are finished or abandoned, beans that are kept were
finished or brought, and no bean was entered that was made while another one of its name was in
progress. -/
structure Orderly (operations : List Operation) (container : Container) : Prop where
  settled : ∀ name bean, container.Noted (.entered name bean) →
    container.Noted (.committed name bean) ∨ container.Noted (.abandoned name bean) ∨
      container.inCreation.find? name = some bean
  cached : ∀ name bean, container.singletons.find? name = some bean →
    container.Noted (.committed name bean) ∨ .registerSingleton name bean ∈ operations
  finished : ∀ name bean, container.finished.find? name = some bean →
    container.Noted (.committed name bean)
  apart : ∀ prior owner definition bean later,
    container.heap.journal.toList = prior ++ .constructed owner definition bean :: later →
      InProgress prior owner → ¬ container.Noted (.entered owner bean)

namespace Orderly

variable {operations : List Operation} {before after : Container} {added : List Event}

/-- Beans that are constructed alone stay apart from those that are in progress. -/
theorem extend (orderly : Orderly operations before)
    (journal : after.heap.journal.toList = before.heap.journal.toList ++ added)
    (settled : ∀ name bean, after.Noted (.entered name bean) →
      after.Noted (.committed name bean) ∨ after.Noted (.abandoned name bean) ∨
        after.inCreation.find? name = some bean)
    (cached : ∀ name bean, after.singletons.find? name = some bean →
      after.Noted (.committed name bean) ∨ .registerSingleton name bean ∈ operations)
    (finished : ∀ name bean, after.finished.find? name = some bean →
      after.Noted (.committed name bean))
    (unentered : ∀ name definition bean, before.Noted (.constructed name definition bean) →
      .entered name bean ∉ added)
    (apart : ∀ front owner definition bean later,
      added = front ++ .constructed owner definition bean :: later →
        InProgress (before.heap.journal.toList ++ front) owner →
          ¬ after.Noted (.entered owner bean)) : Orderly operations after where
  settled := settled
  cached := cached
  finished := finished
  apart prior owner definition bean later split busy := by
    rw [journal] at split
    rcases split_append split with ⟨rest, isBefore, _⟩ | ⟨front, rfl, isAdded⟩
    · have constructed : before.Noted (.constructed owner definition bean) := by
        rw [Noted, isBefore]
        simp
      intro entered
      rw [Noted, journal] at entered
      rcases List.mem_append.1 entered with early | late
      · exact orderly.apart _ _ _ _ _ isBefore busy early
      · exact unentered _ _ _ constructed late
    · exact apart front owner definition bean later isAdded busy

/-- Nothing is constructed or entered, no bean leaves creation unnoticed, and what is kept was
kept before. -/
theorem quiet (orderly : Orderly operations before)
    (journal : after.heap.journal.toList = before.heap.journal.toList ++ added)
    (unconstructed : ∀ name definition bean, .constructed name definition bean ∉ added)
    (unentered : ∀ name bean, .entered name bean ∉ added)
    (leaves : ∀ name bean, before.inCreation.find? name = some bean →
      after.Noted (.committed name bean) ∨ after.Noted (.abandoned name bean) ∨
        after.inCreation.find? name = some bean)
    (cached : ∀ name bean, after.singletons.find? name = some bean →
      before.singletons.find? name = some bean ∨ after.Noted (.committed name bean) ∨
        .registerSingleton name bean ∈ operations)
    (finished : ∀ name bean, after.finished.find? name = some bean →
      before.finished.find? name = some bean ∨ after.Noted (.committed name bean)) :
    Orderly operations after := by
  have earlier : ∀ {event}, before.Noted event → after.Noted event := by
    intro event noted
    rw [Noted, journal]
    exact List.mem_append_left _ noted
  refine orderly.extend journal ?_ ?_ ?_ (fun name _ bean _ => unentered name bean) ?_
  · intro name bean entered
    rw [Noted, journal] at entered
    rcases List.mem_append.1 entered with early | late
    · rcases orderly.settled name bean early with committed | abandoned | creating
      · exact .inl (earlier committed)
      · exact .inr (.inl (earlier abandoned))
      · exact leaves name bean creating
    · exact absurd late (unentered name bean)
  · intro name bean found
    rcases cached name bean found with foundBefore | kept
    · exact (orderly.cached name bean foundBefore).imp_left earlier
    · exact kept
  · intro name bean found
    rcases finished name bean found with foundBefore | committed
    · exact earlier (orderly.finished name bean foundBefore)
    · exact committed
  · rintro front owner definition bean later rfl
    exact absurd (by simp) (unconstructed owner definition bean)

/-- A bean may be constructed; it is entered only if no other one of its name is in creation. -/
theorem construct (orderly : Orderly operations before) (coherent : before.Coherent) {name : String}
    {definition : Definition} {raw : Bean} {arguments : List Value} {cells : List (String × Value)}
    (isRaw : (before.heap.create definition.type arguments cells).1 = raw)
    (journal : after.heap.journal.toList = before.heap.journal.toList ++
      (.created raw :: .constructed name definition raw :: added))
    (enters : added = [] ∧ after.inCreation = before.inCreation ∨
      added = [.entered name raw] ∧ before.inCreation.find? name = none ∧
        after.inCreation = before.inCreation.insert name raw)
    (singletons : after.singletons = before.singletons)
    (finished : after.finished = before.finished) : Orderly operations after := by
  have earlier : ∀ {event}, before.Noted event → after.Noted event := by
    intro event noted
    rw [Noted, journal]
    exact List.mem_append_left _ noted
  have entering : ∀ {other bean}, after.Noted (.entered other bean) →
      before.Noted (.entered other bean) ∨ .entered other bean ∈ added := by
    intro other bean entered
    rw [Noted, journal] at entered
    simpa [Noted] using entered
  refine orderly.extend journal ?_ ?_ ?_ ?_ ?_
  · intro other bean entered
    rcases entering entered with early | late
    · rcases orderly.settled other bean early with committed | abandoned | creating
      · exact .inl (earlier committed)
      · exact .inr (.inl (earlier abandoned))
      · refine .inr (.inr ?_)
        rcases enters with ⟨_, same⟩ | ⟨_, fresh, same⟩
        · rw [same]
          exact creating
        · rw [same]
          exact Table.find?_insert_of_absent raw fresh creating
    · rcases enters with ⟨rfl, _⟩ | ⟨rfl, _, same⟩
      · simp at late
      · obtain ⟨rfl, rfl⟩ : other = name ∧ bean = raw := by simpa using late
        rw [same]
        exact .inr (.inr (Table.find?_insert_self _ _ _))
  · intro other bean found
    rw [singletons] at found
    exact (orderly.cached other bean found).imp_left earlier
  · intro other bean found
    rw [finished] at found
    exact earlier (orderly.finished other bean found)
  · intro other known bean constructed late
    rcases enters with ⟨rfl, _⟩ | ⟨rfl, _⟩
    · simp at late
    · obtain ⟨rfl, rfl⟩ : other = name ∧ bean = raw := by simpa using late
      subst isRaw
      exact coherent.unconstructed _ _ _ _ _ constructed
  · intro front owner known bean later split busy entered
    obtain ⟨rfl, isConstructed⟩ : front = [.created raw] ∧
        Event.constructed name definition raw = .constructed owner known bean := by
      have alone : ∀ front, added ≠ front ++ .constructed owner known bean :: later := by
        rcases enters with ⟨rfl, _⟩ | ⟨rfl, _⟩
        · simp
        · simp [List.singleton_eq_append_iff]
      rcases front with _ | ⟨first, _ | ⟨second, front⟩⟩
      · cases (List.cons.inj split).1
      · obtain ⟨rfl, rest⟩ := List.cons.inj split
        exact ⟨rfl, (List.cons.inj rest).1⟩
      · exact absurd (List.cons.inj (List.cons.inj split).2).2 (alone front)
    cases isConstructed
    subst isRaw
    rcases entering entered with early | late
    · exact coherent.unentered _ _ _ _ early
    · rcases enters with ⟨rfl, _⟩ | ⟨_, fresh, _⟩
      · simp at late
      · obtain ⟨present, isEntered, uncommitted, unabandoned⟩ := busy
        rw [List.mem_append, not_or] at uncommitted unabandoned
        have enteredBefore : before.Noted (.entered name present) := by
          simpa [Noted] using isEntered
        rcases orderly.settled name present enteredBefore with committed | abandoned | creating
        · exact uncommitted.1 committed
        · exact unabandoned.1 abandoned
        · rw [fresh] at creating
          cases creating

/-- Every step keeps the order. -/
theorem step (orderly : Orderly operations before) (coherent : before.Coherent)
    (step : Step before after) : Orderly operations after := by
  cases step with
  | mark =>
      refine orderly.quiet (List.append_nil _).symm (by simp) (by simp) ?_ ?_ ?_
      · exact fun _ _ creating => .inr (.inr creating)
      · exact fun _ _ found => .inl found
      · exact fun _ _ found => .inl found
  | @spare name definition arguments cells =>
      have journal := constructed_journal before name definition arguments cells
      refine orderly.construct coherent rfl journal (.inl ⟨rfl, rfl⟩) ?_ ?_
      · rfl
      · rfl
  | @enter name definition arguments cells _ _ fresh =>
      refine orderly.construct coherent rfl ?_ (.inr ⟨rfl, fresh, rfl⟩) ?_ ?_
      · show ((before.constructed name definition arguments cells).noted _).heap.journal.toList = _
        rw [noted_journal, constructed_journal, List.append_assoc]
        rfl
      · rfl
      · rfl
  | wire _ _ grows _ =>
      obtain ⟨events, journal, inner⟩ := grows.journal
      refine orderly.quiet journal ?_ ?_ ?_ ?_ ?_
      · exact fun _ _ _ member => inner _ member trivial
      · exact fun _ _ member => inner _ member trivial
      · exact fun _ _ creating => .inr (.inr creating)
      · exact fun _ _ found => .inl found
      · exact fun _ _ found => .inl found
  | @abandon name raw creating =>
      refine orderly.quiet (noted_journal _ _) (by simp) (by simp) ?_ ?_ ?_
      · intro other bean creatingOther
        by_cases same : other = name
        · subst same
          rw [creating] at creatingOther
          cases creatingOther
          exact .inr (.inl (noted_iff.2 (.inr rfl)))
        · exact .inr (.inr ((Table.find?_erase_of_ne _ same).trans creatingOther))
      · exact fun _ _ found => .inl found
      · exact fun _ _ found => .inl found
  | @commit name definition raw _ _ creating _ =>
      have committed : (before.committed name definition raw).Noted (.committed name raw) :=
        committed_noted_iff.2 (.inr rfl)
      have journal : (before.committed name definition raw).heap.journal.toList =
          before.heap.journal.toList ++ [.committed name raw] := by
        rw [committed_heap]
        exact Array.toList_push
      refine orderly.quiet journal (by simp) (by simp) ?_ ?_ ?_
      · intro other bean creatingOther
        by_cases same : other = name
        · subst same
          rw [creating] at creatingOther
          cases creatingOther
          exact .inl committed
        · rw [committed_inCreation]
          exact .inr (.inr ((Table.find?_erase_of_ne _ same).trans creatingOther))
      · intro other bean found
        rcases of_keep_singletons found with ⟨rfl, rfl⟩ | foundBefore
        · exact .inr (.inl committed)
        · exact .inl foundBefore
      · intro other bean found
        rcases Table.find?_insert_eq_some_iff.1 found with ⟨rfl, rfl⟩ | ⟨_, foundBefore⟩
        · exact .inr committed
        · refine .inl ?_
          cases scope : definition.scope with
          | singleton =>
              rw [scope] at foundBefore
              exact foundBefore
          | prototype =>
              rw [scope] at foundBefore
              exact foundBefore
  | handOut =>
      refine orderly.quiet (noted_journal _ _) (by simp) (by simp) ?_ ?_ ?_
      · exact fun _ _ creating => .inr (.inr creating)
      · exact fun _ _ found => .inl found
      · exact fun _ _ found => .inl found

/-- Every operation keeps the order. -/
theorem effect {operation : Operation} (orderly : Orderly operations before) (sound : before.Sound)
    (member : operation ∈ operations) (effect : operation.Effect before after) :
    Orderly operations after := by
  cases effect with
  | refused => exact orderly
  | registers => exact ⟨orderly.settled, orderly.cached, orderly.finished, orderly.apart⟩
  | removes => exact ⟨orderly.settled, orderly.cached, orderly.finished, orderly.apart⟩
  | configures => exact ⟨orderly.settled, orderly.cached, orderly.finished, orderly.apart⟩
  | caches =>
      refine ⟨orderly.settled, ?_, orderly.finished, orderly.apart⟩
      intro other held found
      rcases Table.find?_insert_eq_some_iff.1 found with ⟨rfl, rfl⟩ | ⟨_, foundBefore⟩
      · exact .inr member
      · exact orderly.cached other held foundBefore
  | @asks _ _ middle asked heap asks continues =>
      have both : Orderly operations middle ∧ middle.Coherent :=
        (asks.steps_of_request sound.numbered).holds_of_coherent sound.coherent
          (Orderly operations) (fun step coherent orderly => orderly.step coherent step) orderly
      obtain ⟨events, journal, inner⟩ := continues.journal
      refine both.1.quiet journal ?_ ?_ ?_ ?_ ?_
      · exact fun _ _ _ member => inner _ member trivial
      · exact fun _ _ member => inner _ member trivial
      · exact fun _ _ creating => .inr (.inr creating)
      · exact fun _ _ found => .inl found
      · exact fun _ _ found => .inl found

end Orderly

theorem new_orderly (operations : List Operation) (properties : PropertyStore) :
    Orderly operations (new properties) where
  settled _ _ noted := by cases noted
  cached _ _ found := by cases found
  finished _ _ found := by cases found
  apart prior owner definition bean later split := by
    have impossible : prior ++ Event.constructed owner definition bean :: later = [] := split.symm
    simp at impossible

/-- After every run the journal is in order. -/
theorem run_orderly (properties : PropertyStore) (operations : List Operation) :
    Orderly operations ((new properties).run operations) := by
  refine (run_holds (fun container => container.Sound ∧ Orderly operations container)
    ⟨new_sound properties, new_orderly operations properties⟩ ?_).2
  intro operation member before after effect both
  exact ⟨both.1.effect effect, both.2.effect both.1 member effect⟩

/-! ## Courses of a run -/

/-- The life of a bean as the journal of a run tells it.  It was constructed while some operation
was performed, after the first events and before the last ones.  From then on it had the course
that the processors of that time give, and nothing else in the journal is a step of its
creation.  Its turns went by the heap as it was when its fields were written. -/
structure Lifecycle (properties : PropertyStore) (operations : List Operation) (name : String)
    (definition : Definition) (bean : Bean) (before after : List Event)
    (outcome : Option (Except BeanError Unit)) : Prop where
  quiet : Quiet bean before
  course : ∃ earlier operation later, operations = earlier ++ operation :: later ∧
    ((new properties).run earlier).heap.journal.toList <+: before ∧
    before ++ [.constructed name definition bean] <+:
      ((new properties).run (earlier ++ [operation])).heap.journal.toList ∧
    Course (fun events => Heap.Between (((new properties).run earlier).heap.contents.size ≤ ·)
        (· < bean.innermost.index) ((new properties).run earlier).heap
        ((new properties).run (earlier ++ [operation])).heap
        (before ++ .constructed name definition bean :: events))
      ((new properties).run earlier).processors definition name bean outcome after

/-- More operations add nothing to the life of a bean of theirs. -/
theorem Lifecycle.append {properties : PropertyStore} {operations : List Operation} {name : String}
    {definition : Definition} {bean : Bean} {before after added : List Event}
    {outcome : Option (Except BeanError Unit)}
    (lifecycle : Lifecycle properties operations name definition bean before after outcome)
    (quiet : Quiet bean added) (operation : Operation) :
    Lifecycle properties (operations ++ [operation]) name definition bean before (after ++ added)
      outcome := by
  obtain ⟨before, earlier, known, later, rfl, began, done, course⟩ := lifecycle
  exact ⟨before, earlier, known, later ++ [operation], by simp, began, done, course.append quiet⟩

/-- Only beans of the heap have courses in the journal. -/
def Staged (container : Container) : Prop :=
  ∀ event, container.Noted event → ∀ owner bean, event.stage? = some (owner, bean) →
    ∃ record, bean = .plain record ∧ record.index < container.heap.contents.size

theorem Staged.quiet {container : Container} (staged : container.Staged) {record : Record}
    (isNew : container.heap.contents.size ≤ record.index) :
    Quiet (.plain record) container.heap.journal.toList := by
  intro event noted owner isStage
  obtain ⟨same, isRecord, inside⟩ := staged event noted owner _ isStage
  cases isRecord
  exact Nat.not_lt.2 isNew inside

/-- One operation adds the whole courses of the beans that are made in it. -/
theorem perform_recounts (operation : Operation) (container : Container) :
    Heap.Recounts container.processors container.heap (operation.perform container).heap ∧
      container.heap.Grows (operation.perform container).heap := by
  obtain ⟨asked, middle, asks, extended⟩ :=
    @Operation.perform_extends (·.stage? = none) (fun _ => rfl) (fun _ => rfl) (fun _ _ => rfl)
      operation container
  have asking := asks.recounts request_restores request_grows request_recounts
  have grown := asks.grows request_grows
  have growing : middle.heap.Grows (operation.perform container).heap :=
    extended.mono (fun _ impossible => impossible.elim) fun _ _ => trivial
  exact ⟨asking.trans (.of_extends extended fun _ calm => calm) grown growing, grown.trans growing⟩

/-- Each bean that was constructed in a run has its life in the journal. -/
theorem run_lifecycle (properties : PropertyStore) (operations : List Operation) :
    ((new properties).run operations).Staged ∧
      ∀ before owner definition bean after,
        ((new properties).run operations).heap.journal.toList =
          before ++ .constructed owner definition bean :: after →
        ∃ outcome,
          Lifecycle properties operations owner definition bean before after outcome := by
  induction operations using List.reverseRecOn with
  | nil =>
      refine ⟨fun _ noted => (nomatch noted), ?_⟩
      intro before owner definition bean after split
      have impossible : before ++ Event.constructed owner definition bean :: after = [] :=
        split.symm
      simp at impossible
  | append_singleton earlier operation ih =>
      obtain ⟨staged, lifecycles⟩ := ih
      obtain ⟨⟨events, journal, recounted⟩, grows⟩ :=
        perform_recounts operation ((new properties).run earlier)
      have performed : operation.perform ((new properties).run earlier) =
          (new properties).run (earlier ++ [operation]) :=
        (run_append (new properties) earlier [operation]).symm
      rw [performed] at journal recounted grows
      constructor
      · intro event noted owner bean isStage
        rw [Noted, journal] at noted
        rcases List.mem_append.1 noted with early | late
        · obtain ⟨record, isRecord, inside⟩ := staged event early owner bean isStage
          exact ⟨record, isRecord, Nat.lt_of_lt_of_le inside grows.size_le⟩
        · obtain ⟨record, isRecord, _, inside⟩ := recounted.within event late owner bean isStage
          exact ⟨record, isRecord, inside⟩
      · intro before owner definition bean after split
        rw [journal] at split
        rcases split_append split with ⟨rest, isEarlier, rfl⟩ | ⟨front, rfl, isAdded⟩
        · obtain ⟨outcome, lifecycle⟩ := lifecycles before owner definition bean rest isEarlier
          have constructed : ((new properties).run earlier).Noted
              (.constructed owner definition bean) := by
            rw [Noted, isEarlier]
            simp
          obtain ⟨record, rfl, inside⟩ := staged _ constructed owner bean rfl
          have isOlder := recounted.quiet fun isNew => Nat.not_lt.2 isNew.1 inside
          exact ⟨outcome, lifecycle.append isOlder operation⟩
        · obtain ⟨record, rfl, isNew, _⟩ := recounted.record_of_split isAdded
          obtain ⟨quiet, outcome, course⟩ := recounted.courses _ _ _ _ _ isAdded
          refine ⟨outcome, (staged.quiet isNew).append quiet, earlier, operation, [], rfl,
            List.prefix_append _ _, ?_, course.mono fun events view between => ?_⟩
          · exact ⟨after, by rw [journal, isAdded]; simp⟩
          · rw [List.append_assoc]
            exact between

/-- A bean that was committed has come to the end of its course. -/
theorem Course.of_committed {sees : List Event → Heap → Prop} {chain : Chain}
    {definition : Definition} {name : String} {raw : Bean}
    {outcome : Option (Except BeanError Unit)} {events : List Event}
    (course : Course sees chain definition name raw outcome events)
    (committed : .committed name raw ∈ events) : outcome = some (.ok ()) := by
  cases course with
  | spare quiet => exact absurd rfl (quiet _ committed name)
  | @entered resolving ending later result aside ends quiet =>
      have inEnding : .committed name raw ∈ ending := by
        rcases List.mem_cons.1 committed with impossible | member
        · cases impossible
        rcases List.mem_append.1 member with early | late
        · rcases List.mem_append.1 early with inResolving | inEnding
          · exact absurd rfl (aside _ inResolving name)
          · exact inEnding
        · exact absurd rfl (quiet _ late name)
      cases ends with
      | finished => rfl
      | unresolved => simp at inEnding
      | failed finishes =>
          rcases List.mem_append.1 inEnding with early | last
          · rcases finishes.stage early with calm | isResolved | isWired
            · cases calm
            · cases isResolved
            · cases isWired
          · simp at last

/-! ## The chain of processors -/

end Container

/-- The built-in processor comes first, and all others are processors that were added. -/
def Chain.IsLed (chain : Chain) : Prop :=
  ∃ links, chain.links = .awareness Container.busyText :: links ∧
    ∀ link ∈ links, ∃ processor, link.processor? = some processor

/-- Each operation that adds a link adds a processor. -/
theorem Operation.processor_of_addition {operation : Operation} {link : Link}
    (added : operation.addition? = some link) :
    ∃ processor, link.processor? = some processor := by
  cases operation with
  | addProcessor processor =>
      cases added
      exact ⟨processor, rfl⟩
  | addOwnedProcessor processor =>
      cases added
      exact ⟨processor, rfl⟩
  | _ => cases added

namespace Container

theorem run_isLed (properties : PropertyStore) (operations : List Operation) :
    ((new properties).run operations).processors.IsLed := by
  refine ⟨_, run_links properties operations, ?_⟩
  intro link member
  obtain ⟨operation, _, added⟩ := List.mem_filterMap.1 (Link.mem_of_mem_latest member)
  exact Operation.processor_of_addition added

/-! ## Beans that are not resolved yet -/

/-- After every run beans whose fields were not all resolved are as their constructors made
them. -/
theorem run_withholds (properties : PropertyStore) (operations : List Operation) :
    (new properties).heap.Grows ((new properties).run operations).heap ∧
      (new properties).heap.Withholds ((new properties).run operations).heap := by
  refine run_holds (fun container => (new properties).heap.Grows container.heap ∧
    (new properties).heap.Withholds container.heap) ⟨.refl _, .refl _⟩ ?_
  intro operation _ before after effect both
  cases effect with
  | refused => exact both
  | registers => exact both
  | removes => exact both
  | caches => exact both
  | configures => exact both
  | @asks _ _ middle asked heap asks continues =>
      have asking := asks.withholds request_grows request_withholds
      have grows := both.1.trans (asks.grows request_grows)
      have continuing : middle.heap.Grows heap :=
        continues.mono (fun _ impossible => impossible.elim) fun _ _ => trivial
      refine ⟨grows.trans continuing, ?_⟩
      exact (both.2.grows asking both.1 (asks.grows request_grows)).trans
        (.of_extends continues fun _ _ _ inner => inner trivial) grows continues
        fun _ _ _ => not_false

/-! ## The lives of all beans -/

/-- Every bean that was constructed in a run has its life in the journal, and one that was made
while another one of its name was in progress goes no further.  Every bean that is finished or
cached, unless it was brought as a singleton, has come to the end of its course.  The built-in
processor always comes first.  Wherever a call is active, a bean whose fields are not all resolved
is as its constructor made it. -/
theorem run_conducts_lives (properties : PropertyStore) (operations : List Operation) :
    (∀ before owner definition bean after,
      ((new properties).run operations).heap.journal.toList =
        before ++ .constructed owner definition bean :: after →
      ∃ outcome,
        Lifecycle properties operations owner definition bean before after outcome ∧
          (InProgress before owner → outcome = none)) ∧
    (∀ name bean, ((new properties).run operations).finished.find? name = some bean ∨
        ((new properties).run operations).singletons.find? name = some bean ∧
          .registerSingleton name bean ∉ operations →
      ∃ before definition after, ((new properties).run operations).heap.journal.toList =
          before ++ .constructed name definition bean :: after ∧
        Lifecycle properties operations name definition bean before after (some (.ok ()))) ∧
    (∀ earlier, ((new properties).run earlier).processors.IsLed) ∧
    ∀ name count call, Active ⟨name, (new properties).run operations⟩ count call →
      ∀ owner definition record,
        call.container.Noted (.constructed owner definition (.plain record)) →
          ¬ call.container.Noted (.resolved owner (.plain record)) →
        record.index < call.container.heap.contents.size ∧
          call.container.heap.Waits definition record := by
  have orderly := run_orderly properties operations
  have coherent := (run_sound properties operations).coherent
  have lifecycles := (run_lifecycle properties operations).2
  refine ⟨?_, ?_, run_isLed properties, ?_⟩
  · intro before owner definition bean after split
    obtain ⟨outcome, lifecycle⟩ := lifecycles before owner definition bean after split
    refine ⟨outcome, lifecycle, ?_⟩
    intro busy
    have unentered := orderly.apart before owner definition bean after split busy
    obtain ⟨_, _, _, _, _, _, _, course⟩ := lifecycle
    cases course with
    | spare => rfl
    | entered =>
        refine absurd ?_ unentered
        rw [Noted, split]
        simp
  · intro name bean kept
    have committed : ((new properties).run operations).Noted (.committed name bean) := by
      rcases kept with finished | ⟨cached, foreign⟩
      · exact orderly.finished name bean finished
      · exact (orderly.cached name bean cached).resolve_right foreign
    obtain ⟨definition, constructed⟩ :=
      coherent.entered name bean (coherent.committed name bean committed).1
    obtain ⟨before, after, split⟩ := List.append_of_mem constructed
    obtain ⟨outcome, lifecycle⟩ := lifecycles before name definition bean after split
    refine ⟨before, definition, after, split, ?_⟩
    have isLater : .committed name bean ∈ after := by
      rw [Noted, split] at committed
      rcases List.mem_append.1 committed with early | late
      · exact absurd rfl (lifecycle.quiet _ early name)
      · exact (List.mem_cons.1 late).resolve_left (by simp)
    have whole := lifecycle
    obtain ⟨_, _, _, _, _, _, _, course⟩ := lifecycle
    rw [← course.of_committed isLater]
    exact whole
  · intro name count call active owner definition record constructed unresolved
    obtain ⟨grows, withholds⟩ := run_withholds properties operations
    obtain ⟨growsLater, withholdsLater⟩ := active.withholds
    obtain ⟨_, inside, waits⟩ := withholds.grows withholdsLater grows growsLater owner definition
      record ⟨_, rfl, constructed⟩ unresolved
    exact ⟨inside, waits⟩

/-- The first of two singletons that refer to each other has lived its life to the end, also though
it was made a second time on the way. -/
theorem mutualPair_conducts_lives :
    ∃ bean, ((new {}).run mutualPair).singletons.find? "Alpha" = some bean ∧
      .registerSingleton "Alpha" bean ∉ mutualPair ∧
      ∃ before definition after, ((new {}).run mutualPair).heap.journal.toList =
          before ++ .constructed "Alpha" definition bean :: after ∧
        Lifecycle {} mutualPair "Alpha" definition bean before after (some (.ok ())) := by
  have isCached : (((new {}).run mutualPair).singletons.find? "Alpha").isSome = true := by
    decide +kernel
  obtain ⟨bean, cached⟩ := Option.isSome_iff_exists.1 isCached
  have made : .registerSingleton "Alpha" bean ∉ mutualPair := by simp [mutualPair]
  have lives := (run_conducts_lives {} mutualPair).2.1 "Alpha" bean (.inr ⟨cached, made⟩)
  exact ⟨bean, cached, made, lives⟩

end Container
end BeanContainer
