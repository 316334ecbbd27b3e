import BeanContainer.Proofs.Request.Prototypes
import BeanContainer.Proofs.Run.Handouts
import BeanContainer.Proofs.Run.Identity

/-!
# Prototypes are never shared

As long as a name is neither registered nor cached as a singleton, every request for it receives a
bean that was created for this request alone.  No other request of the run receives this bean, at
whatever depth, unless its holder registers it as a singleton of another name.
-/

namespace BeanContainer
namespace Container

/-! ## What a request for a prototype hands out -/

section Requests

variable {state : Container} {name : String} {handout : Handout}

/-- The answer to a request for a name without singletons is a prototype that is created on the
way. -/
theorem Unshared.isNew (unshared : state.Unshared name)
    (succeeded : (request name state).1 = .ok handout) :
    state.IsPrototype name ∧ ∃ record, handout.bean = .plain record ∧
      state.heap.contents.size ≤ record.index ∧
      record.index < (request name state).2.heap.contents.size := by
  have answering := request_cases name state
  rw [succeeded] at answering
  generalize (request name state).2 = final at answering ⊢
  cases answering with
  | cached found =>
      rw [unshared.uncached] at found
      cases found
  | @made definition _ _ _ registered making =>
      cases making with
      | shared _ _ scope => exact absurd ⟨definition, registered, scope⟩ unshared.scope
      | @finished raw built middle asked heap construction _ asks finishing =>
          have isPrototype : definition.scope = .prototype := by
            cases scope : definition.scope with
            | prototype => rfl
            | singleton => exact absurd ⟨definition, registered, scope⟩ unshared.scope
          obtain ⟨_, record, isRecord, behind, inside⟩ := construction.grows request_grows
          have developing := construction.issues_developing request_restores
            (fun name _ => request_issues name) unshared asks finishing
          refine ⟨⟨definition, registered, isPrototype⟩, record, isRecord, behind, ?_⟩
          rw [finished_heap]
          exact Nat.lt_of_lt_of_le inside developing.size_le

end Requests

/-- Beans that are in creation after some steps were created by them. -/
theorem Steps.creating_behind {start state : Container} (idle : start.inCreation = .empty)
    (steps : Steps start state) {name : String} {raw : Bean}
    (creating : state.inCreation.find? name = some raw) :
    start.heap.contents.size ≤ raw.innermost.index := by
  have behind := steps.holds (fun container =>
    start.heap.contents.size ≤ container.heap.contents.size ∧
      ∀ name raw, container.inCreation.find? name = some raw →
        start.heap.contents.size ≤ raw.innermost.index) ?_ ?_
  · exact behind.2 name raw creating
  · rintro before after step ⟨size, behind⟩
    refine ⟨Nat.le_trans size step.grows.size_le, ?_⟩
    intro other held creating
    cases step with
    | mark => exact behind other held creating
    | spare => exact behind other held creating
    | wire => exact behind other held creating
    | handOut => exact behind other held creating
    | enter =>
        rcases Table.find?_insert_eq_some_iff.1 creating with ⟨_, rfl⟩ | ⟨_, earlier⟩
        · exact size
        · exact behind other held earlier
    | abandon => exact behind other held (Table.find?_erase_eq_some_iff.1 creating).2
    | commit =>
        rw [committed_inCreation] at creating
        exact behind other held (Table.find?_erase_eq_some_iff.1 creating).2
  · refine ⟨Nat.le_refl _, ?_⟩
    intro other held creating
    rw [idle] at creating
    cases creating

/-! ## Whose beans are handed out -/

/-- Whatever was handed out for a name was constructed for it or registered as its singleton. -/
def HandsOutOwn (operations : List Operation) (container : Container) : Prop :=
  ∀ name bean, container.Noted (.handedOut name bean) →
    (∃ definition, container.Noted (.constructed name definition bean)) ∨
      .registerSingleton name bean ∈ operations

/-- In a step only a bean that can be had is handed out. -/
theorem Step.handedOut {before after : Container} (step : Step before after) {name : String}
    {bean : Bean} (handedOut : after.Noted (.handedOut name bean)) :
    before.Noted (.handedOut name bean) ∨ before.Has name bean := by
  cases step with
  | mark => exact .inl handedOut
  | spare =>
      simp only [constructed_noted_iff, reduceCtorEq, or_false] at handedOut
      exact .inl handedOut
  | enter =>
      simp only [enter_noted_iff, noted_iff, constructed_noted_iff, reduceCtorEq, or_false]
        at handedOut
      exact .inl handedOut
  | wire _ _ grows _ => exact .inl (grows.mem_journal_of_not handedOut fun inner => inner trivial)
  | abandon =>
      simp only [noted_iff, leave_noted_iff, reduceCtorEq, or_false] at handedOut
      exact .inl handedOut
  | commit =>
      simp only [committed_noted_iff, reduceCtorEq, or_false] at handedOut
      exact .inl handedOut
  | handOut has =>
      simp only [noted_iff, Event.handedOut.injEq] at handedOut
      rcases handedOut with earlier | ⟨rfl, rfl⟩
      · exact .inl earlier
      · exact .inr has

/-- A bean that can be had under a name is its own. -/
theorem CastsExplained.own_of_has {operations : List Operation} {container : Container}
    (explained : container.CastsExplained operations) (coherent : container.Coherent)
    {name : String} {bean : Bean} (has : container.Has name bean) :
    (∃ definition, container.Noted (.constructed name definition bean)) ∨
      .registerSingleton name bean ∈ operations := by
  cases has with
  | cached found =>
      rcases explained.origin name bean found with ⟨definition, made⟩ | ⟨given, _⟩
      · exact .inl ⟨definition, made.constructed⟩
      · exact .inr given
  | creating found =>
      obtain ⟨definition, _, constructed⟩ := coherent.defined name bean found
      exact .inl ⟨definition, constructed⟩
  | prototype _ _ committed =>
      have entered := (coherent.committed name bean committed).1
      exact .inl (coherent.entered name bean entered)

namespace HandsOutOwn

variable {operations : List Operation} {before after : Container}

theorem step (own : before.HandsOutOwn operations) (explained : before.CastsExplained operations)
    (coherent : before.Coherent) (step : Step before after) : after.HandsOutOwn operations := by
  intro name bean handedOut
  have known : (∃ definition, before.Noted (.constructed name definition bean)) ∨
      .registerSingleton name bean ∈ operations := by
    rcases step.handedOut handedOut with earlier | has
    · exact own name bean earlier
    · exact explained.own_of_has coherent has
  rcases known with ⟨definition, constructed⟩ | given
  · exact .inl ⟨definition, step.mem_journal constructed⟩
  · exact .inr given

theorem effect {operation : Operation} (own : before.HandsOutOwn operations)
    (explained : before.CastsExplained operations) (sound : before.Sound)
    (effect : operation.Effect before after) : after.HandsOutOwn operations := by
  cases effect with
  | refused => exact own
  | registers => exact own
  | removes => exact own
  | caches => exact own
  | configures => exact own
  | @asks _ _ middle _ _ asks continues =>
      have asked : (middle.HandsOutOwn operations ∧ middle.CastsExplained operations) ∧
          middle.Coherent :=
        (asks.steps_of_request sound.numbered).holds_of_coherent sound.coherent
          (fun container =>
            container.HandsOutOwn operations ∧ container.CastsExplained operations)
          (fun step coherent both =>
            ⟨both.1.step both.2 coherent step, both.2.step coherent step⟩) ⟨own, explained⟩
      intro name bean handedOut
      have earlier := continues.mem_journal_of_not handedOut fun inner => inner trivial
      rcases asked.1.1 name bean earlier with ⟨definition, constructed⟩ | given
      · exact .inl ⟨definition, continues.mem_journal constructed⟩
      · exact .inr given

end HandsOutOwn

/-! ## Runs -/

/-- The state is one in which requests are made after the given one, be it after complete requests
or on behalf of another request. -/
def Amidst (start state : Container) : Prop :=
  ∃ asked middle, Asks request start asked middle ∧ Within middle state

theorem Amidst.steps {start state : Container} (numbered : start.registry.Numbered)
    (amidst : Amidst start state) : Steps start state := by
  obtain ⟨asked, middle, asks, within⟩ := amidst
  have first := asks.steps_of_request numbered
  rw [← (asks.restores request_restores).registry] at numbered
  exact first.trans (within.steps numbered)

/-- After every run, whatever was handed out for a name is its own. -/
theorem run_handsOutOwn (properties : PropertyStore) (operations : List Operation) :
    ((new properties).run operations).HandsOutOwn operations := by
  have silent : (new properties).HandsOutOwn operations := by
    intro name bean handedOut
    cases handedOut
  refine (run_holds (fun container => container.HandsOutOwn operations ∧
    container.CastsExplained operations ∧ container.Sound)
      ⟨silent, new_castsExplained properties operations, new_sound properties⟩ ?_).1
  rintro operation member before after effect ⟨own, explained, sound⟩
  exact ⟨own.effect explained sound effect, explained.effect sound member effect,
    sound.effect effect⟩

/-- An operation does not lose records. -/
theorem perform_size_le (operation : Operation) (container : Container) :
    container.heap.contents.size ≤ (operation.perform container).heap.contents.size := by
  obtain ⟨asked, middle, asks, extended⟩ := @Operation.perform_extends (fun _ => True)
    (fun _ => trivial) (fun _ => trivial) (fun _ _ => trivial) operation container
  exact Nat.le_trans (asks.grows request_grows).size_le extended.size_le

theorem run_size_le (container : Container) (operations : List Operation) :
    container.heap.contents.size ≤ (container.run operations).heap.contents.size := by
  induction operations generalizing container with
  | nil => exact Nat.le_refl _
  | cons operation operations ih =>
      exact Nat.le_trans (perform_size_le operation container) (ih (operation.perform container))

/-- If nothing but prototypes is registered under a name, it is never cached. -/
theorem run_unshared (properties : PropertyStore) {operations : List Operation} {name : String}
    (prototypes : ∀ declaration definition, .register name declaration ∈ operations →
      declaration.define = .ok definition → definition.scope = .prototype)
    (free : ∀ bean, .registerSingleton name bean ∉ operations) :
    ((new properties).run operations).Unshared name := by
  refine run_holds (Unshared · name) ⟨?_, rfl⟩ ?_
  · rintro ⟨definition, registered, _⟩
    cases registered
  · intro operation member before after effect unshared
    cases effect with
    | refused => exact unshared
    | @registers added declaration definition _ declared _ =>
        refine ⟨?_, unshared.uncached⟩
        rintro ⟨known, registered, scope⟩
        rcases Table.find?_insert_eq_some_iff.1 registered with ⟨rfl, rfl⟩ | ⟨_, earlier⟩
        · rw [prototypes declaration definition member declared] at scope
          cases scope
        · exact unshared.scope ⟨known, earlier, scope⟩
    | removes =>
        refine ⟨?_, unshared.uncached⟩
        rintro ⟨known, registered, scope⟩
        exact unshared.scope ⟨known, (Table.find?_erase_eq_some_iff.1 registered).2, scope⟩
    | @caches added bean =>
        refine ⟨unshared.scope, ?_⟩
        have differs : name ≠ added := by
          rintro rfl
          exact free bean member
        exact (Table.find?_insert_of_ne _ _ differs).trans unshared.uncached
    | configures => exact ⟨unshared.scope, unshared.uncached⟩
    | asks asks =>
        obtain ⟨scope, uncached⟩ := unshared.restores (asks.restores request_restores)
        exact ⟨scope, uncached⟩

/-- While a name has no singletons, whatever a run hands out for it is created in the run, and
handed out once. -/
theorem run_issues {container : Container} {operations : List Operation} {name : String}
    (unshared : ∀ earlier, earlier <+: operations → (container.run earlier).Unshared name) :
    container.heap.Issues name (container.run operations).heap := by
  induction operations generalizing container with
  | nil => exact .refl _ _
  | cons operation operations ih =>
      obtain ⟨asked, middle, asks, extended⟩ :=
        @Operation.perform_extends (·.issue? name = none) (fun _ => rfl) (fun _ => rfl)
          (fun _ _ => rfl) operation container
      have asking : container.heap.Issues name middle.heap :=
        asks.issues request_restores (fun other _ => request_issues other)
          (unshared [] List.nil_prefix)
      have skipped : middle.heap.Skips name (operation.perform container).heap :=
        extended.mono (fun _ impossible => impossible.elim) fun _ => id
      refine (asking.trans (.of_skips skipped)).trans (ih ?_)
      intro earlier isPrefix
      exact unshared (operation :: earlier) (List.cons_prefix_cons.2 ⟨rfl, isPrefix⟩)

/-- A name under which a bean was registered as a singleton is cached. -/
theorem cached_of_registerSingleton (name : String) (bean : Bean) (container : Container) :
    ((Operation.registerSingleton name bean).perform container).singletons.find? name ≠ none := by
  simp only [Operation.perform, registerSingleton]
  cases found : container.singletons.find? name with
  | some present => simp [Table.contains, found, Except.toOption]
  | none => simp [Table.contains, found, Except.toOption, cache]

/-- Beans are registered as singletons only once they exist. -/
def RegistersExisting (properties : PropertyStore) (operations : List Operation) : Prop :=
  ∀ earlier later name bean, operations = earlier ++ .registerSingleton name bean :: later →
    bean.innermost.index < ((new properties).run earlier).heap.contents.size

section Runs

variable {properties : PropertyStore} {operations : List Operation} {name : String}

/-- A bean that was registered as a singleton is not one that is in creation later. -/
theorem RegistersExisting.innermost_ne (existing : RegistersExisting properties operations)
    {state : Container} (steps : Steps ((new properties).run operations) state) {other : String}
    {bean raw : Bean} (given : .registerSingleton other bean ∈ operations)
    (creating : state.inCreation.find? name = some raw) :
    bean.innermost.index ≠ raw.innermost.index := by
  have idle := (run_atRest properties operations).inCreation
  have behind := steps.creating_behind idle creating
  obtain ⟨earlier, later, split⟩ := List.append_of_mem given
  have inside := existing earlier later other bean split
  have size := run_size_le ((new properties).run earlier) (.registerSingleton other bean :: later)
  rw [← run_append, ← split] at size
  omega

theorem RegistersExisting.of_prefix (existing : RegistersExisting properties operations)
    {earlier : List Operation} (isPrefix : earlier <+: operations) :
    RegistersExisting properties earlier := by
  intro first later other bean split
  obtain ⟨rest, isRest⟩ := isPrefix
  refine existing first (later ++ rest) other bean ?_
  rw [← isRest, split, List.append_assoc, List.cons_append]

/-- A name without singletons has none after any steps. -/
theorem Unshared.steps {start state : Container} (unshared : start.Unshared name)
    (coherent : start.Coherent) (steps : Steps start state) : state.Unshared name := by
  refine (steps.holds_of_coherent coherent (Unshared · name) ?_ unshared).1
  rintro before after step coherent ⟨scope, uncached⟩
  refine ⟨?_, ?_⟩
  · rw [IsSingleton, step.registry]
    exact scope
  · cases cached : after.singletons.find? name with
    | none => rfl
    | some bean =>
        rcases step.cached coherent cached with earlier | ⟨definition, registered, made⟩
        · rw [uncached] at earlier
          cases earlier
        · exact absurd ⟨definition, registered, made.scope⟩ scope

/-- A bean of the name that is in creation is not the answer to any request. -/
theorem Unshared.creating_ne {state : Container} (unshared : state.Unshared name)
    (steps : Steps ((new properties).run operations) state)
    (existing : RegistersExisting properties operations) {raw : Bean}
    (creating : state.inCreation.find? name = some raw) {other : String} {handout : Handout}
    (succeeded : (request other state).1 = .ok handout) :
    handout.bean.innermost.index ≠ raw.innermost.index := by
  obtain ⟨explained, coherent, numbered⟩ := steps.explained
  obtain ⟨definition, _, constructed⟩ := coherent.defined name raw creating
  obtain ⟨record, rfl, inside⟩ := coherent.placed name definition raw constructed
  by_cases same : other = name
  · subst same
    obtain ⟨_, created, isCreated, behind, _⟩ := unshared.isNew succeeded
    rw [isCreated]
    exact Nat.ne_of_gt (Nat.lt_of_lt_of_le inside behind)
  · have coherentLater := (explained.steps coherent (request_steps other state numbered).1).2
    have vouches := explained.vouches coherent numbered succeeded
    cases vouches with
    | @constructed known bean constructedNow _ _ =>
        obtain ⟨held, rfl, _⟩ := coherentLater.placed other known bean constructedNow
        intro isSame
        have stillConstructed := (request_grows other state).mem_journal constructed
        exact same (coherentLater.apart _ _ _ _ _ _ constructedNow stillConstructed isSame).1
    | registered given => exact existing.innermost_ne steps given creating

/-- No bean is registered as a singleton of a name that is never cached. -/
theorem not_registerSingleton (unshared : ∀ earlier, earlier <+: operations →
      ((new properties).run earlier).Unshared name) (bean : Bean) :
    .registerSingleton name bean ∉ operations := by
  intro given
  obtain ⟨earlier, later, split⟩ := List.append_of_mem given
  have isPrefix : earlier ++ [.registerSingleton name bean] <+: operations :=
    ⟨later, by rw [split, List.append_assoc, List.singleton_append]⟩
  have uncached := (unshared _ isPrefix).uncached
  rw [run_append] at uncached
  exact cached_of_registerSingleton name bean _ uncached

/-- A bean that was handed out for a name without singletons was handed out this once, unless its
holder registered it as a singleton of another name. -/
theorem run_handsOut_once (unshared : ∀ earlier, earlier <+: operations →
      ((new properties).run earlier).Unshared name) {before after : List Event} {bean : Bean}
    (journal : ((new properties).run operations).heap.journal.toList =
      before ++ .handedOut name bean :: after)
    {other : String} {held : Bean} (member : .handedOut other held ∈ before ++ after)
    (isSame : held.innermost.index = bean.innermost.index) :
    other ≠ name ∧ .registerSingleton other held ∈ operations := by
  have coherent := (run_sound properties operations).coherent
  have own := run_handsOutOwn properties operations
  have noted : ∀ {event}, event ∈ before ++ .handedOut name bean :: after →
      ((new properties).run operations).Noted event := fun {event} member => by
    rw [Noted, journal]
    exact member
  have notedBean := noted (List.mem_append_right _ List.mem_cons_self)
  have notedHeld : ((new properties).run operations).Noted (.handedOut other held) := by
    refine noted ?_
    rcases List.mem_append.1 member with early | late
    · exact List.mem_append_left _ early
    · exact List.mem_append_right _ (List.mem_cons_of_mem _ late)
  have differs : other ≠ name := by
    rintro rfl
    obtain ⟨events, isJournal, _, apart⟩ := (run_issues unshared).journal
    have isEvents : events = before ++ .handedOut other bean :: after :=
      isJournal.symm.trans journal
    rw [isEvents] at apart
    exact issued_apart apart member isSame
  refine ⟨differs, ?_⟩
  obtain ⟨definition, constructed⟩ :=
    (own name bean notedBean).resolve_right (not_registerSingleton unshared bean)
  rcases own other held notedHeld with ⟨known, constructedHeld⟩ | given
  · obtain ⟨record, rfl, _⟩ := coherent.placed _ _ _ constructed
    obtain ⟨heldRecord, rfl, _⟩ := coherent.placed _ _ _ constructedHeld
    have sameName := (coherent.apart _ _ _ _ _ _ constructedHeld constructed isSame).1
    exact absurd sameName differs
  · exact given

/-- As long as a name has no singletons, each request for it that succeeds, at whatever depth, hands
out a bean that is created on the way, and no bean is cached under the name.  No request hands out a
bean of the name that is in creation, if beans are registered as singletons only once they exist.
A bean that was handed out for the name in a run was handed out this once, unless its holder
registered it as a singleton of another name. -/
theorem run_never_shares_prototypes (properties : PropertyStore) (operations : List Operation)
    {name : String}
    (unshared : ∀ earlier, earlier <+: operations →
      ((new properties).run earlier).Unshared name) :
    (∀ earlier, earlier <+: operations → ∀ state, Amidst ((new properties).run earlier) state →
      (∀ handout, (request name state).1 = .ok handout →
        state.IsPrototype name ∧ ∃ record, handout.bean = .plain record ∧
          state.heap.contents.size ≤ record.index ∧
          record.index < (request name state).2.heap.contents.size) ∧
      (RegistersExisting properties operations → ∀ raw, state.inCreation.find? name = some raw →
        ∀ other handout, (request other state).1 = .ok handout →
          handout.bean.innermost.index ≠ raw.innermost.index) ∧
      ∀ other, (request other state).2.singletons.find? name = none) ∧
    ∀ before after bean,
      ((new properties).run operations).heap.journal.toList =
        before ++ .handedOut name bean :: after →
      ∀ other held, .handedOut other held ∈ before ++ after →
        held.innermost.index = bean.innermost.index →
          other ≠ name ∧ .registerSingleton other held ∈ operations := by
  refine ⟨?_, ?_⟩
  · intro earlier isPrefix state amidst
    have sound := run_sound properties earlier
    have steps := amidst.steps sound.numbered
    have stillUnshared := (unshared earlier isPrefix).steps sound.coherent steps
    refine ⟨fun handout => stillUnshared.isNew, ?_, ?_⟩
    · intro existing raw creating other handout
      exact stillUnshared.creating_ne steps (existing.of_prefix isPrefix) creating
    · exact fun other => (stillUnshared.restores (request_restores other state)).uncached
  · intro before after bean journal other held
    exact run_handsOut_once unshared journal

end Runs

/-- A singleton and a prototype that refer to each other.  The prototype is injected into the
singleton, and then requested twice. -/
def pagedIndex : List Operation :=
  [.register "Index" (referring "Index" "Page"),
    .register "Page" { referring "Page" "Index" with scope := .given .prototype },
    .request "Index", .request "Page", .request "Page"]

namespace pagedIndex

theorem unshared (earlier : List Operation) (isPrefix : earlier <+: pagedIndex) :
    ((new {}).run earlier).Unshared "Page" := by
  refine run_unshared {} ?_ ?_
  · intro declaration definition member declared
    have isPage : declaration = { referring "Page" "Index" with scope := .given .prototype } := by
      simpa [pagedIndex] using isPrefix.subset member
    subst isPage
    have scope : (({ referring "Page" "Index" with scope := .given .prototype } :
        Declaration).define.toOption.map (·.scope)) = some .prototype := by
      decide +kernel
    rw [declared] at scope
    exact Option.some.inj scope
  · intro bean member
    simpa [pagedIndex] using isPrefix.subset member

theorem registersExisting : RegistersExisting {} pagedIndex := by
  intro earlier later other bean split
  have member : .registerSingleton other bean ∈ pagedIndex := by simp [split]
  simp [pagedIndex] at member

/-- Three pages were handed out. -/
theorem issued_eq :
    issued "Page" ((new {}).run pagedIndex).heap.journal.toList = [1, 3, 4] := by
  decide +kernel

theorem succeeds : ∃ handout, (request "Page" ((new {}).run pagedIndex)).1 = .ok handout := by
  have isOk : (request "Page" ((new {}).run pagedIndex)).1.toOption.isSome = true := by
    decide +kernel
  cases succeeded : (request "Page" ((new {}).run pagedIndex)).1 with
  | error error =>
      rw [succeeded] at isOk
      cases isOk
  | ok handout => exact ⟨handout, rfl⟩

end pagedIndex

/-- Each page that was handed out was handed out once, and the next one will be new.  While a page
is in creation, a request that succeeds hands out another bean. -/
theorem pagedIndex_never_shares_prototypes :
    (∀ earlier, earlier <+: pagedIndex → ((new {}).run earlier).Unshared "Page") ∧
    RegistersExisting {} pagedIndex ∧
    (∀ earlier, earlier <+: pagedIndex → ∀ state, Amidst ((new {}).run earlier) state →
      ∀ raw, state.inCreation.find? "Page" = some raw →
        ∀ other handout, (request other state).1 = .ok handout →
          handout.bean.innermost.index ≠ raw.innermost.index) ∧
    issued "Page" ((new {}).run pagedIndex).heap.journal.toList = [1, 3, 4] ∧
    (∀ before after bean, ((new {}).run pagedIndex).heap.journal.toList =
        before ++ .handedOut "Page" bean :: after →
      ∀ other held, .handedOut other held ∈ before ++ after →
        held.innermost.index ≠ bean.innermost.index) ∧
    ∃ handout record, (request "Page" ((new {}).run pagedIndex)).1 = .ok handout ∧
      handout.bean = .plain record ∧
      ((new {}).run pagedIndex).heap.contents.size ≤ record.index := by
  obtain ⟨requests, once⟩ := run_never_shares_prototypes {} pagedIndex pagedIndex.unshared
  refine ⟨pagedIndex.unshared, pagedIndex.registersExisting, ?_, pagedIndex.issued_eq, ?_, ?_⟩
  · intro earlier isPrefix state amidst
    exact (requests earlier isPrefix state amidst).2.1 pagedIndex.registersExisting
  · intro before after bean journal other held member same
    have given := (once before after bean journal other held member same).2
    simp [pagedIndex] at given
  · obtain ⟨handout, succeeded⟩ := pagedIndex.succeeds
    have afterwards : Amidst ((new {}).run pagedIndex) ((new {}).run pagedIndex) :=
      ⟨[], _, .nil, .inl rfl⟩
    obtain ⟨_, record, isRecord, behind, _⟩ :=
      (requests pagedIndex (List.prefix_refl _) _ afterwards).1 handout succeeded
    exact ⟨handout, record, succeeded, isRecord, behind⟩

end Container
end BeanContainer
