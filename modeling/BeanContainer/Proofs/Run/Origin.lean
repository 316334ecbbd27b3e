import BeanContainer.Proofs.Run.Ledger

/-!
# Where cached beans come from

A bean is cached when it was made as a singleton, or when it is registered as one.  It is never
replaced, and what it can be handed out as is what its definition listed when it was made, or
nothing but its own type.
-/

namespace BeanContainer

/-! ## Types of definitions -/

/-- Beans of the definition can be handed out as their own type. -/
structure Definition.CastsItself (definition : Definition) : Prop where
  source : definition.casts.source = definition.type
  supports : definition.casts.supports definition.type = true

/-- A target stays one if others are added. -/
theorem Casts.supports_foldl_add {casts : Casts} {type : TypeName} (targets : List TypeName)
    (supports : casts.supports type = true) : (targets.foldl add casts).supports type = true := by
  induction targets generalizing casts with
  | nil => exact supports
  | cons target targets ih =>
      refine ih ?_
      unfold add
      split
      · exact supports
      · simp only [Casts.supports, decide_eq_true_eq] at supports ⊢
        exact List.mem_append_left _ supports

theorem Declaration.castsItself_of_define {declaration : Declaration} {definition : Definition}
    (declared : declaration.define = .ok definition) : definition.CastsItself where
  source := (type_of_define declared).2
  supports := by
    unfold define at declared
    obtain ⟨scope, _, declaredFields⟩ := bind_eq_ok_iff.1 declared
    obtain ⟨fields, _, declaredRecipe⟩ := bind_eq_ok_iff.1 declaredFields
    obtain ⟨recipe, _, equal⟩ := bind_eq_ok_iff.1 declaredRecipe
    cases equal
    exact Casts.supports_foldl_add declaration.implements (by simp [Casts.supports, Casts.identity])

/-! ## Where cached beans come from -/

/-- The bean was constructed as the singleton of the definition, and finished. -/
structure Heap.Made (heap : Heap) (name : String) (definition : Definition) (bean : Bean) :
    Prop where
  scope : definition.scope = .singleton
  constructed : .constructed name definition bean ∈ heap.journal.toList
  committed : .committed name bean ∈ heap.journal.toList

/-- No event of a bean is lost. -/
theorem Heap.Made.grow {before after : Heap} {name : String} {definition : Definition} {bean : Bean}
    (made : before.Made name definition bean)
    (keeps : ∀ event, event ∈ before.journal.toList → event ∈ after.journal.toList) :
    after.Made name definition bean :=
  ⟨made.scope, keeps _ made.constructed, keeps _ made.committed⟩

/-- Events that are not of requests make no bean. -/
theorem Heap.Made.of_continues {before after : Heap} {name : String} {definition : Definition}
    {bean : Bean} (made : after.Made name definition bean) (continues : before.Continues after) :
    before.Made name definition bean where
  scope := made.scope
  constructed := continues.mem_journal_of_not made.constructed fun inner => inner trivial
  committed := continues.mem_journal_of_not made.committed fun inner => inner trivial

namespace Container

/-- A bean was constructed of one definition only. -/
theorem Coherent.definition_eq {container : Container} (coherent : container.Coherent)
    {name other : String} {definition known : Definition} {bean : Bean}
    (constructed : container.Noted (.constructed name definition bean))
    (constructedAgain : container.Noted (.constructed other known bean)) : definition = known := by
  obtain ⟨record, rfl, _⟩ := coherent.placed name definition bean constructed
  exact (coherent.apart _ _ _ _ _ _ constructed constructedAgain rfl).2.1

/-- Cached beans were made by the container or registered as singletons by one of the operations,
and what they can be handed out as follows from that. -/
structure CastsExplained (operations : List Operation) (container : Container) : Prop where
  registered : ∀ name definition, container.registry.find? name = some definition →
    definition.CastsItself
  constructed : ∀ name definition bean, container.Noted (.constructed name definition bean) →
    definition.CastsItself ∧ bean.type = definition.type ∧
      (container.registry.find? name = some definition ∨ .remove name ∈ operations)
  made : ∀ name definition bean, container.heap.Made name definition bean →
    container.singletons.find? name = some bean ∧
      container.casts.find? name = some definition.casts
  origin : ∀ name bean, container.singletons.find? name = some bean →
    (∃ definition, container.heap.Made name definition bean) ∨
      .registerSingleton name bean ∈ operations ∧
        container.casts.find? name = some (Casts.identity bean.type)

section Steps

variable {before after : Container} {name : String} {definition : Definition} {bean : Bean}

@[simp] theorem enter_noted_iff {container : Container} {raw : Bean} {event : Event} :
    (container.enter name raw).Noted event ↔ container.Noted event := Iff.rfl

/-- In a step only beans of registered definitions are constructed. -/
theorem Step.constructed (step : Step before after)
    (constructed : after.Noted (.constructed name definition bean)) :
    before.Noted (.constructed name definition bean) ∨
      before.registry.find? name = some definition ∧ bean.type = definition.type := by
  cases step with
  | mark => exact .inl constructed
  | spare registered =>
      simp only [constructed_noted_iff, reduceCtorEq, false_or, Event.constructed.injEq]
        at constructed
      rcases constructed with earlier | ⟨rfl, rfl, rfl⟩
      · exact .inl earlier
      · exact .inr ⟨registered, rfl⟩
  | enter registered =>
      simp only [enter_noted_iff, noted_iff, constructed_noted_iff, reduceCtorEq, false_or,
        or_false, Event.constructed.injEq] at constructed
      rcases constructed with earlier | ⟨rfl, rfl, rfl⟩
      · exact .inl earlier
      · exact .inr ⟨registered, rfl⟩
  | wire _ _ grows _ => exact .inl (grows.mem_journal_of_not constructed fun inner => inner trivial)
  | abandon =>
      simp only [noted_iff, leave_noted_iff, reduceCtorEq, or_false] at constructed
      exact .inl constructed
  | commit =>
      simp only [committed_noted_iff, reduceCtorEq, or_false] at constructed
      exact .inl constructed
  | handOut =>
      simp only [noted_iff, reduceCtorEq, or_false] at constructed
      exact .inl constructed

/-- In a step a bean is committed only under a name that is not cached, and of the definition that
is registered for it. -/
theorem Step.committed (step : Step before after)
    (committed : after.Noted (.committed name bean)) :
    before.Noted (.committed name bean) ∨
      ∃ definition, before.registry.find? name = some definition ∧
        before.inCreation.find? name = some bean ∧ before.singletons.find? name = none ∧
          after = before.committed name definition bean := by
  cases step with
  | mark => exact .inl committed
  | spare =>
      simp only [constructed_noted_iff, reduceCtorEq, or_false] at committed
      exact .inl committed
  | enter =>
      simp only [enter_noted_iff, noted_iff, constructed_noted_iff, reduceCtorEq, or_false]
        at committed
      exact .inl committed
  | wire _ _ grows _ => exact .inl (grows.mem_journal_of_not committed fun inner => inner trivial)
  | abandon =>
      simp only [noted_iff, leave_noted_iff, reduceCtorEq, or_false] at committed
      exact .inl committed
  | commit registered uncached creating =>
      simp only [committed_noted_iff, Event.committed.injEq] at committed
      rcases committed with earlier | ⟨rfl, rfl⟩
      · exact .inl earlier
      · exact .inr ⟨_, registered, creating, uncached, rfl⟩
  | handOut =>
      simp only [noted_iff, reduceCtorEq, or_false] at committed
      exact .inl committed

/-- A cached bean stays, with what it can be handed out as. -/
theorem Step.retains (step : Step before after)
    (cached : before.singletons.find? name = some bean) :
    after.singletons.find? name = some bean ∧
      after.casts.find? name = before.casts.find? name := by
  cases step with
  | mark => exact ⟨cached, rfl⟩
  | spare => exact ⟨cached, rfl⟩
  | enter => exact ⟨cached, rfl⟩
  | wire => exact ⟨cached, rfl⟩
  | abandon => exact ⟨cached, rfl⟩
  | @commit other definition raw _ uncached _ _ =>
      have stillUncached : (before.leave other).singletons.find? other = none := uncached
      have stillCached : (before.leave other).singletons.find? name = some bean := cached
      refine ⟨keep_singletons_of_uncached stillUncached stillCached, ?_⟩
      have differs : name ≠ other := by
        rintro rfl
        rw [uncached] at cached
        cases cached
      exact @keep_casts_of_ne (before.leave other) definition other name raw differs
  | handOut => exact ⟨cached, rfl⟩

/-- A bean that is cached by a step was made of the definition that is registered for its name. -/
theorem Step.cached (step : Step before after) (coherent : before.Coherent)
    (cached : after.singletons.find? name = some bean) :
    before.singletons.find? name = some bean ∨
      ∃ definition, before.registry.find? name = some definition ∧
        after.heap.Made name definition bean := by
  cases step with
  | mark => exact .inl cached
  | spare => exact .inl cached
  | enter => exact .inl cached
  | wire => exact .inl cached
  | abandon => exact .inl cached
  | @commit other definition raw registered uncached creating _ =>
      have stillUncached : (before.leave other).singletons.find? other = none := uncached
      have kept : ((before.leave other).keep definition other raw).singletons.find? name =
          some bean := cached
      rcases of_keep_singletons kept with ⟨rfl, rfl⟩ | earlier
      · obtain ⟨known, isKnown, constructed⟩ := coherent.defined name raw creating
        rw [registered] at isKnown
        cases isKnown
        exact .inr ⟨definition, registered, scope_of_keep stillUncached kept,
          committed_noted_iff.2 (.inl constructed), committed_noted_iff.2 (.inr rfl)⟩
      · exact .inl earlier
  | handOut => exact .inl cached

/-- A bean that was committed before was made before. -/
theorem Step.made (step : Step before after) (coherent : before.Coherent)
    (made : after.heap.Made name definition bean)
    (committed : before.Noted (.committed name bean)) :
    before.heap.Made name definition bean := by
  have entered := (coherent.committed name bean committed).1
  obtain ⟨known, constructed⟩ := coherent.entered name bean entered
  have same := (coherent.step step).definition_eq (step.mem_journal constructed) made.constructed
  subst same
  exact ⟨made.scope, constructed, committed⟩

end Steps

namespace CastsExplained

variable {operations : List Operation} {before after : Container}

theorem step (explained : before.CastsExplained operations) (coherent : before.Coherent)
    (step : Step before after) : after.CastsExplained operations where
  registered name definition registered := by
    rw [step.registry] at registered
    exact explained.registered name definition registered
  constructed name definition bean constructed := by
    rw [step.registry]
    rcases step.constructed constructed with earlier | ⟨registered, type⟩
    · exact explained.constructed name definition bean earlier
    · exact ⟨explained.registered name definition registered, type, .inl registered⟩
  made name definition bean made := by
    rcases step.committed made.committed with earlier | ⟨known, registered, creating, _, isAfter⟩
    · have madeBefore := step.made coherent made earlier
      obtain ⟨cached, casts⟩ := explained.made name definition bean madeBefore
      rw [(step.retains cached).2]
      exact ⟨(step.retains cached).1, casts⟩
    · -- The bean is committed in this step, so it was made of the definition registered now.
      obtain ⟨other, isOther, constructed⟩ := coherent.defined name bean creating
      rw [registered] at isOther
      cases isOther
      have same := (coherent.step step).definition_eq (step.mem_journal constructed)
        made.constructed
      subst same
      subst isAfter
      exact ⟨keep_singletons_self _ made.scope, keep_casts_self _ made.scope⟩
  origin name bean cached := by
    rcases step.cached coherent cached with earlier | ⟨definition, _, made⟩
    · rcases explained.origin name bean earlier with ⟨definition, made⟩ | ⟨given, casts⟩
      · exact .inl ⟨definition, made.grow fun _ => step.mem_journal⟩
      · rw [(step.retains earlier).2]
        exact .inr ⟨given, casts⟩
    · exact .inl ⟨definition, made⟩

theorem steps (explained : before.CastsExplained operations) (coherent : before.Coherent)
    (steps : Steps before after) : after.CastsExplained operations ∧ after.Coherent :=
  steps.holds_of_coherent coherent (CastsExplained operations)
    (fun step coherent explained => explained.step coherent step) explained

/-- Events that are not of requests do not matter. -/
theorem continues {heap : Heap} (explained : before.CastsExplained operations)
    (continues : before.heap.Continues heap) :
    (before.withHeap heap).CastsExplained operations := by
  refine ⟨explained.registered, ?_, ?_, ?_⟩
  · intro name definition bean constructed
    apply explained.constructed name definition bean
    exact continues.mem_journal_of_not constructed fun inner => inner trivial
  · exact fun name definition bean made =>
      explained.made name definition bean (made.of_continues continues)
  · intro name bean cached
    rcases explained.origin name bean cached with ⟨definition, isMade⟩ | given
    · exact .inl ⟨definition, isMade.grow fun _ => continues.mem_journal⟩
    · exact .inr given

/-- No operation makes the casts of a cached bean unexplained. -/
theorem effect {operation : Operation} (explained : before.CastsExplained operations)
    (sound : before.Sound) (member : operation ∈ operations)
    (effect : operation.Effect before after) : after.CastsExplained operations := by
  cases effect with
  | refused => exact explained
  | @registers added declaration known _ declared free =>
      refine ⟨?_, ?_, explained.made, explained.origin⟩
      · intro name definition registered
        rcases Table.find?_insert_eq_some_iff.1 registered with ⟨_, rfl⟩ | ⟨_, earlier⟩
        · exact Declaration.castsItself_of_define declared
        · exact explained.registered name definition earlier
      · intro name definition bean constructed
        obtain ⟨itself, type, known⟩ := explained.constructed name definition bean constructed
        exact ⟨itself, type, known.imp_left (Table.find?_insert_of_absent _ free)⟩
  | @removes removed =>
      refine ⟨?_, ?_, explained.made, explained.origin⟩
      · intro name definition registered
        exact explained.registered name definition (Table.find?_erase_eq_some_iff.1 registered).2
      · intro name definition bean constructed
        obtain ⟨itself, type, known⟩ := explained.constructed name definition bean constructed
        refine ⟨itself, type, ?_⟩
        by_cases isRemoved : name = removed
        · subst isRemoved
          exact .inr member
        · refine known.imp_left fun registered => ?_
          exact Table.find?_erase_eq_some_iff.2 ⟨isRemoved, registered⟩
  | @caches added given _ free =>
      refine ⟨explained.registered, explained.constructed, ?_, ?_⟩
      · intro name definition bean made
        obtain ⟨cached, casts⟩ := explained.made name definition bean made
        have differs : name ≠ added := by
          rintro rfl
          rw [free] at cached
          cases cached
        exact ⟨Table.find?_insert_of_absent _ free cached,
          (Table.find?_insert_of_ne _ _ differs).trans casts⟩
      · intro name bean cached
        rcases Table.find?_insert_eq_some_iff.1 cached with ⟨rfl, rfl⟩ | ⟨differs, earlier⟩
        · exact .inr ⟨member, Table.find?_insert_self _ _ _⟩
        · rcases explained.origin name bean earlier with ⟨definition, made⟩ | ⟨isGiven, casts⟩
          · exact .inl ⟨definition, made⟩
          · exact .inr ⟨isGiven, (Table.find?_insert_of_ne _ _ differs).trans casts⟩
  | configures =>
      exact ⟨explained.registered, explained.constructed, explained.made, explained.origin⟩
  | asks asks continues =>
      have asked := asks.steps_of_request sound.numbered
      exact (explained.steps sound.coherent asked).1.continues continues

end CastsExplained

theorem new_castsExplained (properties : PropertyStore) (operations : List Operation) :
    (new properties).CastsExplained operations := by
  have silent : ∀ event, ¬ (new properties).Noted event := by
    intro event noted
    cases noted
  refine ⟨nofun, ?_, ?_, nofun⟩
  · exact fun _ _ _ constructed => absurd constructed (silent _)
  · exact fun _ _ _ made => absurd made.committed (silent _)

/-- After every run it is explained what cached beans can be handed out as. -/
theorem run_castsExplained (properties : PropertyStore) (operations : List Operation) :
    ((new properties).run operations).CastsExplained operations := by
  refine (run_holds (fun container => container.CastsExplained operations ∧ container.Sound)
    ⟨new_castsExplained properties operations, new_sound properties⟩ ?_).1
  intro operation member before after effect both
  exact ⟨both.1.effect both.2 member effect, both.2.effect effect⟩

end Container
end BeanContainer
