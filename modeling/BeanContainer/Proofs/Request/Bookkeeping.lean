import BeanContainer.Proofs.Request.Cases

/-!
# Requests undo their bookkeeping

A request marks names as constructing or in creation and removes exactly these marks
again, whichever way it ends.  Marked names keep their place in the cache, so nested
requests neither replace a finished singleton nor finish a bean twice; names are only
added, and only for singletons that are registered.
-/

namespace BeanContainer
namespace Container

/-- Whether the name is constructing or in creation. -/
def IsMarked (container : Container) (name : String) : Prop :=
  name ∈ container.constructing ∨ container.inCreation.find? name ≠ none

/-- A finished singleton and what it can be handed out as are kept or not kept
together. -/
def CachesAgree (container : Container) : Prop :=
  ∀ name, container.singletons.contains name = container.casts.contains name

/-- A bean is cached together with what it can be handed out as. -/
theorem CachesAgree.cache {container : Container} (agree : container.CachesAgree) (name : String)
    (bean : Bean) (casts : Casts) : (container.cache name bean casts).CachesAgree := by
  intro other
  show (container.singletons.insert name bean).contains other =
    (container.casts.insert name casts).contains other
  by_cases same : other = name
  · subst same
    simp [Table.contains]
  · simp only [Table.contains, Table.find?_insert_of_ne _ _ same]
    exact agree other

/-- The name is registered with a singleton. -/
def IsSingleton (container : Container) (name : String) : Prop :=
  ∃ definition, container.registry.find? name = some definition ∧ definition.scope = .singleton

instance (container : Container) (name : String) : Decidable (container.IsSingleton name) :=
  container.registry.decidableRegistered name (·.scope = .singleton)

/-- The name is registered with a prototype. -/
def IsPrototype (container : Container) (name : String) : Prop :=
  ∃ definition, container.registry.find? name = some definition ∧ definition.scope = .prototype

instance (container : Container) (name : String) : Decidable (container.IsPrototype name) :=
  container.registry.decidableRegistered name (·.scope = .prototype)

theorem not_isPrototype {container : Container} {name : String}
    (singleton : container.IsSingleton name) : ¬ container.IsPrototype name := by
  intro prototype
  obtain ⟨definition, registered, isSingleton⟩ := singleton
  obtain ⟨other, registeredAgain, isPrototype⟩ := prototype
  rw [registered] at registeredAgain
  cases registeredAgain
  rw [isSingleton] at isPrototype
  cases isPrototype

/-- After a request the container is as before, apart from beans that were made. -/
structure Restores (before after : Container) : Prop where
  registry : after.registry = before.registry
  properties : after.properties = before.properties
  processors : after.processors = before.processors
  constructing : after.constructing = before.constructing
  inCreation : after.inCreation = before.inCreation
  retains : ∀ name bean, before.singletons.find? name = some bean →
    after.singletons.find? name = some bean ∧ after.casts.find? name = before.casts.find? name
  introduces : ∀ name bean, after.singletons.find? name = some bean →
    before.singletons.find? name = none → before.IsSingleton name
  agrees : before.CachesAgree → after.CachesAgree
  marked : ∀ name, before.IsMarked name →
    after.singletons.find? name = before.singletons.find? name

namespace Restores

variable {first second third : Container}

theorem refl (container : Container) : Restores container container where
  registry := rfl
  properties := rfl
  processors := rfl
  constructing := rfl
  inCreation := rfl
  retains _ _ found := ⟨found, rfl⟩
  introduces _ _ found absent := by rw [absent] at found; cases found
  agrees := id
  marked _ _ := rfl

theorem trans (one : Restores first second) (two : Restores second third) :
    Restores first third where
  registry := two.registry.trans one.registry
  properties := two.properties.trans one.properties
  processors := two.processors.trans one.processors
  constructing := two.constructing.trans one.constructing
  inCreation := two.inCreation.trans one.inCreation
  retains name bean found := by
    obtain ⟨kept, casts⟩ := one.retains name bean found
    obtain ⟨keptLater, castsLater⟩ := two.retains name bean kept
    exact ⟨keptLater, castsLater.trans casts⟩
  introduces name bean found absent := by
    cases between : second.singletons.find? name with
    | none =>
        obtain ⟨definition, registered, scope⟩ := two.introduces name bean found between
        exact ⟨definition, by rw [← one.registry]; exact registered, scope⟩
    | some present => exact one.introduces name present between absent
  agrees agree := two.agrees (one.agrees agree)
  marked name isMarked := by
    have stillMarked : second.IsMarked name := by
      rw [IsMarked, one.constructing, one.inCreation]
      exact isMarked
    exact (two.marked name stillMarked).trans (one.marked name isMarked)

/-- Nothing of this concerns the heap. -/
theorem withHeap (container : Container) (heap : Heap) :
    Restores container (container.withHeap heap) :=
  ⟨rfl, rfl, rfl, rfl, rfl, (refl container).retains, (refl container).introduces, id,
    fun _ _ => rfl⟩

theorem noted (container : Container) (event : Event) :
    Restores container (container.noted event) := withHeap container _

/-- The mark of a constructor is removed again. -/
theorem construction {start middle : Container} {name : String}
    (restores : Restores (start.beginConstruction name) middle) :
    Restores start (middle.endConstruction name) where
  registry := restores.registry
  properties := restores.properties
  processors := restores.processors
  constructing := by
    show middle.constructing.erase name = start.constructing
    rw [restores.constructing]
    exact List.erase_cons_head name start.constructing
  inCreation := restores.inCreation
  retains := restores.retains
  introduces := restores.introduces
  agrees := restores.agrees
  marked other isMarked := by
    apply restores.marked
    rcases isMarked with constructing | creating
    · exact .inl (List.mem_cons_of_mem _ constructing)
    · exact .inr creating

/-- The mark of a bean in creation is removed again. -/
theorem creation {start middle : Container} {name : String} {raw : Bean}
    (fresh : start.inCreation.find? name = none)
    (restores : Restores (start.enter name raw) middle) :
    Restores start (middle.leave name) where
  registry := restores.registry
  properties := restores.properties
  processors := restores.processors
  constructing := restores.constructing
  inCreation := by
    show middle.inCreation.erase name = start.inCreation
    rw [restores.inCreation]
    exact Table.erase_insert raw fresh
  retains := restores.retains
  introduces := restores.introduces
  agrees := restores.agrees
  marked other isMarked := by
    apply restores.marked
    rcases isMarked with constructing | creating
    · exact .inl constructing
    · by_cases same : other = name
      · subst same
        exact absurd fresh creating
      · refine .inr ?_
        show (start.inCreation.insert name raw).find? other ≠ none
        rw [Table.find?_insert_of_ne _ _ same]
        exact creating

/-- A singleton is cached under a name that is neither taken nor marked. -/
theorem cache {start : Container} {name : String} (raw : Bean) (casts : Casts)
    (singleton : start.IsSingleton name) (uncached : start.singletons.find? name = none)
    (unmarked : ¬ start.IsMarked name) : Restores start (start.cache name raw casts) where
  registry := rfl
  properties := rfl
  processors := rfl
  constructing := rfl
  inCreation := rfl
  retains other bean found := by
    refine ⟨Table.find?_insert_of_absent raw uncached found, Table.find?_insert_of_ne _ _ ?_⟩
    intro same
    rw [same, uncached] at found
    cases found
  introduces other bean found absent := by
    rcases Table.find?_insert_eq_some_iff.1 found with ⟨same, _⟩ | ⟨_, before⟩
    · rw [same]
      exact singleton
    · rw [absent] at before
      cases before
  agrees agree := agree.cache name raw casts
  marked other isMarked := by
    have different : other ≠ name := fun same => unmarked (same ▸ isMarked)
    exact Table.find?_insert_of_ne _ _ different

/-- A finished bean is kept under a name that is neither taken nor marked. -/
theorem keep {start : Container} {definition : Definition} {name : String} (raw : Bean)
    (registered : start.registry.find? name = some definition)
    (uncached : start.singletons.find? name = none) (unmarked : ¬ start.IsMarked name) :
    Restores start (start.keep definition name raw) := by
  have remembers : ∀ container : Container, ∀ finished : Table String Bean,
      Restores container { container with finished } := fun container finished =>
    ⟨rfl, rfl, rfl, rfl, rfl, (refl container).retains, (refl container).introduces, id,
      fun _ _ => rfl⟩
  unfold Container.keep
  cases scope : definition.scope with
  | prototype => exact remembers start _
  | singleton =>
      have cached := Restores.cache raw definition.casts ⟨definition, registered, scope⟩
        uncached unmarked
      exact cached.trans (remembers _ _)

end Restores

/-! ## Every way through a request -/

section Ways

variable {request : Request}
  (each : ∀ name container, Restores container (request name container).2)
include each

theorem Asks.restores {start final : Container} {asked : Asked}
    (asks : Asks request start asked final) : Restores start final :=
  asks.related Restores.refl Restores.trans each

theorem Construction.restores {definition : Definition} {name : String}
    {start built : Container} {raw : Bean}
    (construction : Construction request definition name start raw built) :
    Restores start built := by
  cases construction with
  | intro idle asks =>
      exact .trans (.construction (.trans (asks.restores each) (.withHeap _ _))) (.noted _ _)

/-- The name of a constructed bean is still not in the cache. -/
theorem Construction.uncached {definition : Definition} {name : String}
    {start built : Container} {raw : Bean}
    (construction : Construction request definition name start raw built)
    (uncached : start.singletons.find? name = none) : built.singletons.find? name = none := by
  cases construction with
  | intro idle asks =>
      have same := (asks.restores each).marked name (.inl List.mem_cons_self)
      exact same.trans uncached

/-- A name whose bean was entered is not cached by resolving its fields. -/
theorem Asks.uncached {name : String} {start final : Container} {raw : Bean} {asked : Asked}
    (asks : Asks request (start.enter name raw) asked final)
    (uncached : start.singletons.find? name = none) : final.singletons.find? name = none := by
  have isMarked : (start.enter name raw).IsMarked name := by
    refine .inr ?_
    show (start.inCreation.insert name raw).find? name ≠ none
    simp
  exact ((asks.restores each).marked name isMarked).trans uncached

/-- Developing a constructed bean leaves the marks as they were before its request. -/
theorem Construction.develops {definition : Definition} {name : String}
    {start built middle : Container} {raw : Bean} {asked : Asked}
    (construction : Construction request definition name start raw built)
    (fresh : built.inCreation.find? name = none)
    (asks : Asks request ((built.noted (.entered name raw)).enter name raw) asked middle)
    (heap : Heap) : Restores start ((middle.withHeap heap).leave name) := by
  have entered : Restores start (built.noted (.entered name raw)) :=
    (construction.restores each).trans (.noted _ _)
  exact entered.trans (.creation fresh (.trans (asks.restores each) (.withHeap _ _)))

/-- Whichever way it goes, making a bean undoes its bookkeeping, and the name of a bean
that was not made is not in the cache. -/
theorem Making.restores {definition : Definition} {name : String} {start final : Container}
    {result : Except BeanError Handout}
    (uncached : start.singletons.find? name = none)
    (registered : start.registry.find? name = some definition)
    (making : Making request definition name start result final) :
    Restores start final ∧
      ∀ error, result = .error error → final.singletons.find? name = none := by
  cases making with
  | busy => exact ⟨.refl _, fun _ _ => uncached⟩
  | unconstructed idle asks =>
      have same := (asks.restores each).marked name (.inl List.mem_cons_self)
      exact ⟨.construction (asks.restores each), fun _ _ => same.trans uncached⟩
  | refused construction =>
      exact ⟨construction.restores each, fun _ _ => construction.uncached each uncached⟩
  | shared construction =>
      exact ⟨(construction.restores each).trans (.noted _ _), by simp⟩
  | abandoned construction fresh asks =>
      have around := construction.develops each fresh asks
      refine ⟨(around _).trans (.noted _ _), fun _ _ => ?_⟩
      exact asks.uncached each (construction.uncached each uncached)
  | @finished raw built middle asked heap construction fresh asks =>
      have around := construction.develops each fresh asks heap
      have stillRegistered : ((middle.withHeap heap).leave name).registry.find? name =
          some definition := by
        rw [around.registry]
        exact registered
      have stillUncached : ((middle.withHeap heap).leave name).singletons.find? name = none :=
        asks.uncached each (construction.uncached each uncached)
      have unmarked : ¬ ((middle.withHeap heap).leave name).IsMarked name := by
        rw [IsMarked, around.constructing, around.inCreation,
          ← (construction.restores each).inCreation]
        intro isMarked
        rcases isMarked with constructing | creating
        · exact construction.idle constructing
        · exact creating fresh
      have kept := Restores.keep raw stillRegistered stillUncached unmarked
      exact ⟨around.trans (kept.trans (.trans (.noted _ _) (.noted _ _))), by simp⟩

/-- Whichever way it is answered, a request undoes its bookkeeping, and a name that was
not cached before a request that failed is not cached after it. -/
theorem Answering.restores {name : String} {start final : Container}
    {result : Except BeanError Handout}
    (answering : Answering request name start result final) :
    Restores start final ∧
      ∀ error, result = .error error → start.singletons.find? name = none →
        final.singletons.find? name = none := by
  cases answering with
  | cached => exact ⟨.noted _ _, by simp⟩
  | unknown uncached => exact ⟨.refl _, fun _ _ _ => uncached⟩
  | made uncached registered making =>
      obtain ⟨restores, absent⟩ := making.restores each uncached registered
      exact ⟨restores, fun error failed _ => absent error failed⟩

end Ways

/-- Requests that undo their bookkeeping leave the definitions and the properties alone. -/
theorem keepsConfiguration {request : Request}
    (each : ∀ name start, Restores start (request name start).2) : KeepsConfiguration request :=
  fun name start => ⟨(each name start).registry, (each name start).properties⟩

/-- A request at any depth undoes its bookkeeping. -/
theorem requestWithin_restores (allowance : Nat) (name : String) (start : Container) :
    Restores start (requestWithin allowance name start).2 := by
  induction allowance generalizing name start with
  | zero => exact .refl start
  | succ allowance ih =>
      exact ((answer_cases (keepsConfiguration ih) name start).restores ih).1

theorem request_restores (name : String) (start : Container) :
    Restores start (request name start).2 := by
  rw [request_apply]
  exact requestWithin_restores _ name start

/-- What holds of a request whose allowance is used up, and of every way to answer one
if it holds of the requests inside, holds of all requests. -/
theorem requestWithin_induct
    {motive : String → Container → Except BeanError Handout → Container → Prop}
    (exhausted : ∀ name start, motive name start (.error .tooDeep) start)
    (step : ∀ allowance, (∀ name start, motive name start (requestWithin allowance name start).1
        (requestWithin allowance name start).2) →
      ∀ name start result final, Answering (requestWithin allowance) name start result final →
        motive name start result final) (allowance : Nat) (name : String) (start : Container) :
    motive name start (requestWithin allowance name start).1
      (requestWithin allowance name start).2 := by
  induction allowance generalizing name start with
  | zero => exact exhausted name start
  | succ allowance ih =>
      have keeps := keepsConfiguration (requestWithin_restores allowance)
      exact step allowance ih name start _ _ (answer_cases keeps name start)

end Container
end BeanContainer
