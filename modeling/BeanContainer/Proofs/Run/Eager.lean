import BeanContainer.Proofs.Request.Constructions
import BeanContainer.Proofs.Request.Notices
import BeanContainer.Proofs.Run.Identity

/-!
# Singletons that are created ahead

Pre-instantiation requests the singletons that are not lazy, in the order in which the registry
visits them, and the first one that cannot be had ends it.  Once all of them are cached, it announces
that for each name in the cache to the bean that is cached under it, so a bean with several names
hears of it under each of them.  Nothing is created that none of the singletons depends on.
-/

namespace BeanContainer

/-- Whether the bean is told in the event that all singletons are there. -/
def Event.tells (bean : Bean) : Event → Bool
  | .notified told => told = bean
  | _ => false

namespace Container

open Running ContainerM

/-- The singletons that are created ahead are those that are registered and not lazy. -/
theorem mem_eagerNames_iff {container : Container} {name : String} :
    name ∈ container.eagerNames ↔ ∃ definition,
      container.registry.find? name = some definition ∧ definition.scope = .singleton ∧
        definition.isLazy = false := by
  simp only [eagerNames, List.mem_map, List.mem_filter, Prod.exists, exists_and_right,
    exists_eq_right, Registry.mem_visit_iff, Bool.and_eq_true, decide_eq_true_eq,
    Bool.not_eq_true']

/-! ## Creating singletons one after the other -/

section Creation

variable {start middle final : Container} {name : String} {names : List String}
  {error : BeanError}

theorem createEach_of_ok {handout : Handout}
    (answered : request name start = (.ok handout, middle)) :
    createEach none (name :: names) start = createEach none names middle := by
  have attempted : attempt (request name) start = (.ok (.ok handout), middle) := by
    simp only [attempt, answered]
  rw [createEach, bind_apply_ok attempted, bind_apply_ok (get_apply middle)]
  rfl

theorem createEach_of_error (answered : request name start = (.error error, middle)) :
    createEach none (name :: names) start = (.error error, middle) := by
  have attempted : attempt (request name) start = (.ok (.error error), middle) := by
    simp only [attempt, answered]
  rw [createEach, bind_apply_ok attempted, bind_apply_ok (get_apply middle)]
  rfl

/-- The names are requested one after the other, and the first that cannot be had is this one. -/
inductive FirstFailure (start : Container) (names before : List String) (name : String)
    (error : BeanError) (final : Container) : Prop
  | intro {after : List String} {asked : Asked} {middle : Container}
      (order : names = before ++ name :: after) (asks : Asks request start asked middle)
      (isBefore : asked.map (·.1) = before)
      (succeed : ∀ entry ∈ asked, ∃ handout, entry.2 = .ok handout)
      (fails : request name middle = (.error error, final))

/-- What requesting the names one after the other comes to. -/
inductive CreatesEach (start : Container) (names : List String) :
    Except BeanError Unit → Container → Prop
  | all {asked : Asked} {final : Container} (asks : Asks request start asked final)
      (isNames : asked.map (·.1) = names)
      (succeed : ∀ entry ∈ asked, ∃ handout, entry.2 = .ok handout) :
      CreatesEach start names (.ok ()) final
  | failed {before : List String} {name : String} {error : BeanError} {final : Container}
      (first : FirstFailure start names before name error final) :
      CreatesEach start names (.error error) final

theorem FirstFailure.cons {before : List String} {other : String} {handout : Handout}
    (answered : request other start = (.ok handout, middle))
    (first : FirstFailure middle names before name error final) :
    FirstFailure start (other :: names) (other :: before) name error final := by
  cases first with
  | intro order asks isBefore succeed fails =>
      refine .intro (congrArg (other :: ·) order) (.cons answered asks)
        (congrArg (other :: ·) isBefore) ?_ fails
      exact List.forall_mem_cons.2 ⟨⟨handout, rfl⟩, succeed⟩

theorem createEach_cases (names : List String) (start : Container) :
    CreatesEach start names (createEach none names start).1 (createEach none names start).2 := by
  induction names generalizing start with
  | nil => exact .all .nil rfl nofun
  | cons name names ih =>
      cases answered : request name start with
      | mk result middle =>
          cases result with
          | error error =>
              rw [createEach_of_error answered]
              exact .failed (.intro rfl .nil rfl nofun answered)
          | ok handout =>
              rw [createEach_of_ok answered]
              have rest := ih middle
              generalize createEach none names middle = outcome at rest ⊢
              obtain ⟨result, final⟩ := outcome
              cases rest with
              | all asks isNames succeed =>
                  refine .all (.cons answered asks) (congrArg (name :: ·) isNames) ?_
                  exact List.forall_mem_cons.2 ⟨⟨handout, rfl⟩, succeed⟩
              | failed first => exact .failed (first.cons answered)

/-- Requesting the names ends at the first that cannot be had. -/
theorem FirstFailure.createEach_eq {before : List String}
    (first : FirstFailure start names before name error final) :
    createEach none names start = (.error error, final) := by
  cases first with
  | @intro after asked middle order asks isBefore succeed fails =>
      subst order isBefore
      induction asks with
      | nil => exact createEach_of_error fails
      | @cons start middle final other result asked answered asks ih =>
          obtain ⟨⟨handout, isOk⟩, later⟩ := List.forall_mem_cons.1 succeed
          cases isOk
          exact (createEach_of_ok answered).trans (ih later fails)

end Creation

/-! ## Announcing that all singletons are there -/

/-- Who hears that all singletons are there, and for which name. -/
def listeners (view : Heap) (singletons : List (String × Bean)) : List (String × Bean) :=
  view.answering (·.onReady) singletons

/-- The announcements to the listeners. -/
def notices (view : Heap) (singletons : List (String × Bean)) : List Event :=
  (listeners view singletons).map fun call => .notified call.2

theorem notices_append (view : Heap) (before after : List (String × Bean)) :
    notices view (before ++ after) = notices view before ++ notices view after := by
  simp [notices, listeners, Heap.answering]

/-- What announcing to the singletons comes to: all of them take it well, or the first that does not
ends it. -/
inductive Notifies (view : Heap) (singletons : List (String × Bean)) :
    List Event → Except BeanError Unit → Prop
  | all : Notifies view singletons (notices view singletons) (.ok ())
  | failed {before after : List (String × Bean)} {name cause : String} {bean link : Bean}
      (order : singletons = before ++ (name, bean) :: after)
      (fails : view.seek bean (·.onReady) = some (link, .error cause)) :
      Notifies view singletons (notices view (before ++ [(name, bean)]))
        (.error (.lifecycle name "after_singletons_instantiated" cause))

theorem Notifies.cons {view : Heap} {singletons : List (String × Bean)} {events : List Event}
    {result : Except BeanError Unit} (entry : String × Bean)
    (notifies : Notifies view singletons events result) :
    Notifies view (entry :: singletons) (notices view [entry] ++ events) result := by
  have split : ∀ rest, notices view [entry] ++ notices view rest = notices view (entry :: rest) :=
    fun rest => (notices_append view [entry] rest).symm
  cases notifies with
  | all =>
      rw [split]
      exact .all
  | @failed before _ _ _ _ _ order fails =>
      rw [split, order]
      exact @Notifies.failed _ _ (entry :: before) _ _ _ _ _ rfl fails

theorem notifyEach_tells (view : Heap) (singletons : List (String × Bean)) :
    HeapM.Tells view (Notifies view singletons) (notifyEach singletons) := by
  induction singletons with
  | nil => exact .pure .all
  | cons entry singletons ih =>
      obtain ⟨name, bean⟩ := entry
      intro heap same
      unfold notifyEach
      rw [bind_apply_ok (get_apply heap)]
      unfold Bean.notify
      rw [same.seek]
      cases found : view.seek bean (·.onReady) with
      | none =>
          obtain ⟨still, events, journal, notifies⟩ := ih heap same
          have silent : notices view [(name, bean)] = [] := by
            simp [notices, listeners, Heap.answering, found]
          have whole := notifies.cons (name, bean)
          rw [silent] at whole
          exact ⟨still, events, journal, whole⟩
      | some answer =>
          obtain ⟨link, result⟩ := answer
          have told : notices view [(name, bean)] = [.notified link] := by
            simp [notices, listeners, Heap.answering, found]
          have noted : view.SameChains (heap.note (.notified link)) := same.trans (.note heap _)
          cases result with
          | ok done =>
              obtain ⟨still, events, journal, notifies⟩ := ih (heap.note (.notified link)) noted
              have whole := notifies.cons (name, bean)
              rw [told] at whole
              refine ⟨still, [.notified link] ++ events, ?_, whole⟩
              rw [← List.append_assoc, ← Array.toList_push]
              exact journal
          | error cause =>
              refine ⟨noted, notices view ([] ++ [(name, bean)]), ?_, .failed rfl found⟩
              rw [List.nil_append, told]
              exact Array.toList_push

/-! ## Pre-instantiation -/

/-- Nothing is announced unless all singletons were created. -/
theorem preInstantiate_cases (start : Container) :
    (∃ before name error final, FirstFailure start start.eagerNames before name error final ∧
      preInstantiate none start = (.error error, final)) ∨
    ∃ asked middle heap result events, Asks request start asked middle ∧
      asked.map (·.1) = start.eagerNames ∧
      (∀ entry ∈ asked, ∃ handout, entry.2 = .ok handout) ∧
      preInstantiate none start = (result, middle.withHeap heap) ∧
      middle.heap.SameChains heap ∧
      heap.journal.toList = middle.heap.journal.toList ++ events ∧
      Notifies middle.heap middle.singletons.entries events result := by
  have creates := createEach_cases start.eagerNames start
  unfold preInstantiate
  rw [bind_apply_ok (get_apply start)]
  show (∃ before name error final, FirstFailure start start.eagerNames before name error final ∧
    (createEach none start.eagerNames >>= _) start = _) ∨ _
  generalize outcome : createEach none start.eagerNames start = created at creates
  obtain ⟨result, middle⟩ := created
  cases creates with
  | failed first => exact .inl ⟨_, _, _, _, first, bind_apply_error outcome⟩
  | all asks isNames succeed =>
      obtain ⟨same, events, journal, notifies⟩ :=
        notifyEach_tells middle.heap middle.singletons.entries middle.heap (.refl _)
      refine .inr ⟨_, middle, _, _, events, asks, isNames, succeed, ?_, same, journal, notifies⟩
      exact bind_apply_ok outcome

/-- Nothing but announcements is made of announcing. -/
theorem Notifies.isNotice {view : Heap} {singletons : List (String × Bean)} {events : List Event}
    {result : Except BeanError Unit} (notifies : Notifies view singletons events result)
    {event : Event} (member : event ∈ events) : ∃ bean, event = .notified bean := by
  have ofNotices : ∀ entries, event ∈ notices view entries → ∃ bean, event = .notified bean := by
    intro entries isNotice
    obtain ⟨call, _, rfl⟩ := List.mem_map.1 isNotice
    exact ⟨call.2, rfl⟩
  cases notifies with
  | all => exact ofNotices _ member
  | failed => exact ofNotices _ member

/-- Whatever it comes to, pre-instantiation requests none but the singletons that are not lazy, and
then adds announcements at most. -/
theorem preInstantiate_requests (start : Container) :
    ∃ asked middle events, Asks request start asked middle ∧
      (∀ entry ∈ asked, entry.1 ∈ start.eagerNames) ∧
      (preInstantiate none start).2.singletons = middle.singletons ∧
      (preInstantiate none start).2.heap.journal.toList =
        middle.heap.journal.toList ++ events ∧
      ∀ event ∈ events, ∃ bean, event = .notified bean := by
  rcases preInstantiate_cases start with ⟨before, name, error, final, first, failed⟩ |
    ⟨asked, middle, heap, result, events, asks, isNames, _, done, _, journal, notifies⟩
  · cases first with
    | @intro after asked middle order asks isBefore _ fails =>
        rw [failed]
        refine ⟨_, final, [], asks.append (.cons fails .nil), ?_, rfl, by simp, by simp⟩
        intro entry member
        rw [order, ← isBefore]
        rcases List.mem_append.1 member with earlier | last
        · exact List.mem_append_left _ (List.mem_map_of_mem earlier)
        · rw [List.mem_singleton.1 last]
          exact List.mem_append_right _ List.mem_cons_self
  · rw [done]
    refine ⟨asked, middle, events, asks, ?_, rfl, journal, fun event => notifies.isNotice⟩
    intro entry member
    rw [← isNames]
    exact List.mem_map_of_mem member

/-- At rest a singleton that can be had is cached then. -/
theorem AtRest.caches {start final : Container} {name : String} {handout : Handout}
    (rest : start.AtRest) (singleton : start.IsSingleton name)
    (answered : request name start = (.ok handout, final)) :
    final.singletons.find? name = some handout.bean := by
  have answering := request_cases name start
  rw [answered] at answering
  cases answering with
  | cached found => exact found
  | @made definition _ _ _ registered making =>
      obtain ⟨known, isKnown, scope⟩ := singleton
      rw [registered] at isKnown
      cases isKnown
      cases making with
      | shared construction pending _ =>
          rw [(construction.restores request_restores).inCreation, rest.inCreation] at pending
          cases pending
      | finished => exact keep_singletons_self _ scope

/-- At rest all singletons are cached that could be had one after the other. -/
theorem AtRest.caches_each {start final : Container} {asked : Asked} (rest : start.AtRest)
    (asks : Asks request start asked final)
    (singletons : ∀ entry ∈ asked, start.IsSingleton entry.1)
    (succeed : ∀ entry ∈ asked, ∃ handout, entry.2 = .ok handout) :
    ∀ name ∈ asked.map (·.1), ∃ bean, final.singletons.find? name = some bean := by
  intro name member
  obtain ⟨⟨other, result⟩, isEntry, rfl⟩ := List.mem_map.1 member
  obtain ⟨handout, isOk⟩ := succeed _ isEntry
  have singleton := singletons _ isEntry
  obtain ⟨_, middle, after, _, _, earlier, answered, later⟩ := asks.split isEntry
  simp only [] at isOk singleton answered ⊢
  subst isOk
  have restores := earlier.restores request_restores
  rw [IsSingleton, ← restores.registry] at singleton
  have cached := (rest.restores restores).caches singleton answered
  exact ⟨handout.bean, ((later.restores request_restores).retains other _ cached).1⟩

section Outcomes

variable {start final : Container} {error : BeanError}

theorem singleton_of_eager {name : String} (isEager : name ∈ start.eagerNames) :
    start.IsSingleton name := by
  obtain ⟨definition, registered, scope, _⟩ := mem_eagerNames_iff.1 isEager
  exact ⟨definition, registered, scope⟩

/-- Requests for eager singletons that all succeed leave them cached. -/
theorem AtRest.caches_eager (rest : start.AtRest) {asked : Asked} {names : List String}
    (asks : Asks request start asked final) (isNames : asked.map (·.1) = names)
    (eager : ∀ name ∈ names, name ∈ start.eagerNames)
    (succeed : ∀ entry ∈ asked, ∃ handout, entry.2 = .ok handout) :
    ∀ name ∈ names, ∃ bean, final.singletons.find? name = some bean := by
  subst isNames
  refine rest.caches_each asks ?_ succeed
  exact fun entry member => singleton_of_eager (eager _ (List.mem_map_of_mem member))

/-- Pre-instantiation from the first container has come to its end in the last one, where the given
beans were told that all singletons are there, each for the name it goes with. -/
structure Announced (start final : Container) (calls : List (String × Bean)) : Prop where
  /-- The singletons that are not lazy are cached. -/
  cached : ∀ name definition, start.registry.find? name = some definition →
    definition.scope = .singleton → definition.isLazy = false →
      ∃ bean, final.singletons.find? name = some bean
  /-- Everything that was created was created before the first bean was told. -/
  journal : ∃ events, final.heap.journal.toList = start.heap.journal.toList ++ events ++
      (calls.map fun call => .notified call.2) ∧
    ∀ event ∈ events, ¬ event.IsAnnouncement
  /-- For no name a bean is told twice. -/
  once : (calls.map (·.1)).Nodup
  /-- For each name the cached bean is told, or the first one behind it that wants to be. -/
  reached : ∀ name link, (name, link) ∈ calls ↔
    ∃ bean result, final.singletons.find? name = some bean ∧
      final.heap.seek bean (·.onReady) = some (link, result)

theorem preInstantiate_succeeds (rest : start.AtRest)
    (succeeded : preInstantiate none start = (.ok (), final)) :
    Announced start final (listeners final.heap final.singletons.entries) := by
  rcases preInstantiate_cases start with ⟨_, _, _, _, _, failed⟩ |
    ⟨asked, middle, heap, result, events, asks, isNames, succeed, done, same, journal, notifies⟩
  · rw [failed] at succeeded
    cases succeeded
  · rw [done] at succeeded
    cases succeeded
    cases notifies with
    | all =>
        obtain ⟨created, journalCreated, silent⟩ :=
          (asks.unannounced request_unannounced).journal
        have sameListeners : listeners heap middle.singletons.entries =
            listeners middle.heap middle.singletons.entries := by
          simp only [listeners, Heap.answering, same.seek]
        rw [journalCreated, notices, ← sameListeners] at journal
        refine ⟨?_, ⟨created, journal, silent⟩, Heap.answering_nodup middle.singletons.keys_nodup,
          ?_⟩
        · intro name definition registered scope isLazy
          have isEager := mem_eagerNames_iff.2 ⟨definition, registered, scope, isLazy⟩
          exact rest.caches_eager asks isNames (fun _ => id) succeed name isEager
        · intro name link
          simp only [listeners, Heap.mem_answering_iff, Table.find?_eq_some_iff]

theorem FirstFailure.preInstantiate_eq (rest : start.AtRest) {before : List String} {name : String}
    (first : FirstFailure start start.eagerNames before name error final) :
    preInstantiate none start = (.error error, final) ∧
      (∀ eager ∈ before, ∃ bean, final.singletons.find? eager = some bean) ∧
      start.heap.Unannounced final.heap := by
  have created := first.createEach_eq
  refine ⟨?_, ?_⟩
  · unfold preInstantiate
    rw [bind_apply_ok (get_apply start)]
    exact bind_apply_error created
  · cases first with
    | @intro after asked middle order asks isBefore succeed fails =>
        have caches := rest.caches_eager asks isBefore (fun eager member => by
          rw [order]
          exact List.mem_append_left _ member) succeed
        have last : Asks request middle [(name, .error error)] final := .cons fails .nil
        refine ⟨?_, (asks.append last).unannounced request_unannounced⟩
        intro eager member
        obtain ⟨bean, cached⟩ := caches eager member
        exact ⟨bean, ((last.restores request_restores).retains eager bean cached).1⟩

theorem preInstantiate_fails (rest : start.AtRest)
    (failed : preInstantiate none start = (.error error, final)) :
    (∃ before name, FirstFailure start start.eagerNames before name error final) ∨
      (∀ eager ∈ start.eagerNames, ∃ bean, final.singletons.find? eager = some bean) ∧
        ∃ name bean link cause, final.singletons.find? name = some bean ∧
          final.heap.seek bean (·.onReady) = some (link, .error cause) ∧
          error = .lifecycle name "after_singletons_instantiated" cause := by
  rcases preInstantiate_cases start with ⟨before, name, _, _, first, isFailed⟩ |
    ⟨asked, middle, heap, result, events, asks, isNames, succeed, done, same, _, notifies⟩
  · rw [isFailed] at failed
    cases failed
    exact .inl ⟨before, name, first⟩
  · rw [done] at failed
    cases failed
    have caches := rest.caches_eager asks isNames (fun _ => id) succeed
    refine .inr ⟨caches, ?_⟩
    cases notifies with
    | @failed _ _ name cause bean link order fails =>
        have member : (name, bean) ∈ middle.singletons.entries := by
          rw [order]
          exact List.mem_append_right _ List.mem_cons_self
        refine ⟨name, bean, link, cause, Table.find?_eq_some_iff.2 member, ?_, rfl⟩
        exact (same.seek bean _).trans fails

theorem preInstantiate_retains {name : String} {bean : Bean}
    (cached : start.singletons.find? name = some bean) :
    (preInstantiate none start).2.singletons.find? name = some bean := by
  obtain ⟨asked, middle, events, asks, _, same, _⟩ := preInstantiate_requests start
  rw [same]
  exact ((asks.restores request_restores).retains name bean cached).1

/-- Beans are constructed only for names that a singleton which is not lazy leads to. -/
theorem preInstantiate_reaches {owner : String} {definition : Definition} {bean : Bean}
    (constructed : start.heap.Notes (preInstantiate none start).2.heap
      (.constructed owner definition bean)) :
    ∃ name ∈ start.eagerNames, start.registry.Reaches name owner := by
  obtain ⟨asked, middle, events, asks, eager, _, journal, notices⟩ :=
    preInstantiate_requests start
  have extended := (asks.grows request_grows).journal_isPrefix
  rcases constructed.split extended ⟨events, journal.symm⟩ with early | ⟨others, isOthers, member⟩
  · obtain ⟨entry, isEntry, reached⟩ := asks.reaches_of_request early
    exact ⟨entry.1, eager entry isEntry, reached.reaches⟩
  · rw [journal, List.append_cancel_left_eq] at isOthers
    subst isOthers
    obtain ⟨_, impossible⟩ := notices _ member
    cases impossible

end Outcomes

/-- After every run, pre-instantiation that succeeds has cached all singletons that are not lazy, and
then announced it once for each name in the cache.  If one of these singletons cannot be had, it ends
with the error of the one that the registry visits first, those before it are cached, and nothing was
announced; besides it fails only if a bean does not take the announcement well.  In any case the
beans that were cached stay cached, and beans are constructed only for names that a singleton that is
not lazy leads to. -/
theorem run_pre_instantiates (properties : PropertyStore) (operations : List Operation) :
    let start := (new properties).run operations
    (∀ final, preInstantiate none start = (.ok (), final) →
      ∃ calls, Announced start final calls) ∧
    (∀ before name error final, FirstFailure start start.eagerNames before name error final →
      preInstantiate none start = (.error error, final) ∧
      (∀ eager ∈ before, ∃ bean, final.singletons.find? eager = some bean) ∧
      start.heap.Unannounced final.heap) ∧
    (∀ error final, preInstantiate none start = (.error error, final) →
      (∃ before name, FirstFailure start start.eagerNames before name error final) ∨
      (∀ eager ∈ start.eagerNames, ∃ bean, final.singletons.find? eager = some bean) ∧
        ∃ name bean link cause, final.singletons.find? name = some bean ∧
          final.heap.seek bean (·.onReady) = some (link, .error cause) ∧
          error = .lifecycle name "after_singletons_instantiated" cause) ∧
    (∀ name bean, start.singletons.find? name = some bean →
      (preInstantiate none start).2.singletons.find? name = some bean) ∧
    ∀ owner definition bean, start.heap.Notes (preInstantiate none start).2.heap
        (.constructed owner definition bean) →
      ∃ name eager, start.registry.find? name = some eager ∧ eager.scope = .singleton ∧
        eager.isLazy = false ∧ start.registry.Reaches name owner := by
  intro start
  have rest : start.AtRest := run_atRest properties operations
  refine ⟨fun _ succeeded => ⟨_, preInstantiate_succeeds rest succeeded⟩,
    fun _ _ _ _ first => first.preInstantiate_eq rest,
    fun _ _ => preInstantiate_fails rest, fun _ _ => preInstantiate_retains, ?_⟩
  intro owner definition bean constructed
  obtain ⟨name, isEager, reaches⟩ := preInstantiate_reaches constructed
  obtain ⟨eager, registered, scope, isLazy⟩ := mem_eagerNames_iff.1 isEager
  exact ⟨name, eager, registered, scope, isLazy, reaches⟩

theorem eq_ok_of_isSome {outcome : Except BeanError Unit × Container}
    (isSome : outcome.1.toOption.isSome = true) : ∃ final, outcome = (.ok (), final) := by
  obtain ⟨result, final⟩ := outcome
  cases result with
  | error error => cases isSome
  | ok _ => exact ⟨final, rfl⟩

/-- A shop whose clerk wants to know that all are there.  The shop needs its vault, which is created
only when needed, and so would be the attic.  The registry goes by the order of registration. -/
def openedShop : List Operation :=
  [.setBehaviour ⟨"Clerk"⟩ { onReady := some (.ok ()) },
    .register "Shop" (referring "Shop" "Vault"), .register "Clerk" { type := ⟨"Clerk"⟩ },
    .register "Vault" { type := ⟨"Vault"⟩, isLazy := true },
    .register "Attic" { type := ⟨"Attic"⟩, isLazy := true },
    .arrange (.inOrder ["Shop", "Clerk", "Vault", "Attic"])]

namespace openedShop

theorem eager : ((new {}).run openedShop).eagerNames = ["Shop", "Clerk"] := by
  decide +kernel

theorem succeeds : (preInstantiate none ((new {}).run openedShop)).1.toOption.isSome = true := by
  decide +kernel

theorem cached : (preInstantiate none ((new {}).run openedShop)).2.singletons.keys =
    ["Clerk", "Shop", "Vault"] := by
  decide +kernel

theorem listening : (listeners (preInstantiate none ((new {}).run openedShop)).2.heap
    (preInstantiate none ((new {}).run openedShop)).2.singletons.entries).map (·.1) = ["Clerk"] := by
  decide +kernel

end openedShop

/-- The clerk is visited last and cached as the first, and nobody else is told that all are there. -/
theorem openedShop_pre_instantiates : ∃ final calls,
    ((new {}).run openedShop).eagerNames = ["Shop", "Clerk"] ∧
    preInstantiate none ((new {}).run openedShop) = (.ok (), final) ∧
    final.singletons.keys = ["Clerk", "Shop", "Vault"] ∧
    Announced ((new {}).run openedShop) final calls ∧
    ∀ name, (∃ link, (name, link) ∈ calls) ↔ name = "Clerk" := by
  obtain ⟨final, succeeded⟩ := eq_ok_of_isSome openedShop.succeeds
  obtain ⟨calls, announced⟩ := (run_pre_instantiates {} openedShop).1 final succeeded
  have cached := openedShop.cached
  have listening := openedShop.listening
  rw [succeeded] at cached listening
  refine ⟨final, calls, openedShop.eager, succeeded, cached, announced, ?_⟩
  intro name
  have hears : (∃ link, (name, link) ∈ calls) ↔
      name ∈ (listeners final.heap final.singletons.entries).map (·.1) := by
    simp only [announced.reached, Table.find?_eq_some_iff, ← Heap.mem_answering_iff, List.mem_map,
      Prod.exists, exists_and_right, exists_eq_right]
    rfl
  rw [hears, listening, List.mem_singleton]

/-- A lamp that wants to know when all are there. -/
def keenLamp : Bean := .plain ⟨0, ⟨"Lamp"⟩, "Lamp#1", { onReady := some (.ok ()) }⟩

/-- The lamp is made, and then registered as a singleton of another name. -/
def lampUnderTwoNames : List Operation :=
  [.setBehaviour ⟨"Lamp"⟩ { onReady := some (.ok ()) }, .register "lamp" { type := ⟨"Lamp"⟩ },
    .request "lamp", .registerSingleton "alias" keenLamp]

/-- It is not so that each cached bean that wants to know is told once: one that is cached under two
names is told twice. -/
theorem not_announces_once : ¬ ∀ (properties : PropertyStore) (operations : List Operation)
    (final : Container) (name : String) (bean : Bean) (result : CallbackResult),
    preInstantiate none ((new properties).run operations) = (.ok (), final) →
    final.singletons.find? name = some bean → bean.capabilities.onReady = some result →
    ∃ events, final.heap.journal.toList =
        ((new properties).run operations).heap.journal.toList ++ events ∧
      events.countP (Event.tells bean) = 1 := by
  intro once
  have told : (((new {}).run lampUnderTwoNames).heap.journal.toList.countP (Event.tells keenLamp),
      (preInstantiate none ((new {}).run lampUnderTwoNames)).2.heap.journal.toList.countP
        (Event.tells keenLamp)) = (0, 2) := by
    decide +kernel
  have isOk : (preInstantiate none ((new {}).run lampUnderTwoNames)).1.toOption.isSome ∧
      (preInstantiate none ((new {}).run lampUnderTwoNames)).2.singletons.find? "lamp" =
        some keenLamp := by
    decide +kernel
  obtain ⟨succeeds, cached⟩ := isOk
  obtain ⟨final, succeeded⟩ := eq_ok_of_isSome succeeds
  rw [succeeded] at told cached
  obtain ⟨events, journal, isOnce⟩ :=
    once {} lampUnderTwoNames final "lamp" keenLamp (.ok ()) succeeded cached rfl
  rw [Prod.mk.injEq, journal, List.countP_append] at told
  omega

end Container
end BeanContainer
