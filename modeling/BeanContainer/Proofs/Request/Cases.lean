import BeanContainer.Proofs.Places
import BeanContainer.Proofs.Request.Resolving

/-!
# The ways through a request

A request is answered in one of a few ways, and each of them is a sequence of nested
requests with changes to the container before and after.  `answer_cases` lists the
ways with everything that happens on them, so that facts about requests are proved
by cases without opening the definitions again.
-/

namespace BeanContainer

namespace Container

open Running ContainerM

/-- The container with another heap. -/
def withHeap (container : Container) (heap : Heap) : Container := { container with heap }

/-- The container with one more event in its journal. -/
def noted (container : Container) (event : Event) : Container :=
  container.withHeap (container.heap.note event)

@[simp] theorem onHeap_apply {α : Type} (action : HeapM α) (start : Container) :
    onHeap action start = ((action start.heap).1, start.withHeap (action start.heap).2) := rfl

@[simp] theorem note_apply (event : Event) (start : Container) :
    note event start = (.ok ⟨⟩, start.noted event) := rfl

@[simp] theorem between_apply {α : Type} (enter leave : Container → Container)
    (action : ContainerM α) (start : Container) :
    between enter leave action start =
      ((action (enter start)).1, leave (action (enter start)).2) := rfl

@[simp] theorem noted_journal (container : Container) (event : Event) :
    (container.noted event).heap.journal.toList = container.heap.journal.toList ++ [event] :=
  Array.toList_push

@[simp] theorem leave_heap (container : Container) (name : String) :
    (container.leave name).heap = container.heap := rfl

@[simp] theorem keep_heap (container : Container) (definition : Definition) (name : String)
    (raw : Bean) : (container.keep definition name raw).heap = container.heap := by
  unfold keep
  cases definition.scope with
  | singleton => rfl
  | prototype => rfl

/-- Finishing a bean and handing it out only adds to the journal. -/
theorem finished_heap (middle : Container) (heap : Heap) (definition : Definition) (name : String)
    (raw : Bean) :
    (((((middle.withHeap heap).leave name).keep definition name raw).noted
      (.committed name raw)).noted (.handedOut name raw)).heap =
        (heap.note (.committed name raw)).note (.handedOut name raw) := by
  simp [noted, withHeap]

@[simp] theorem keep_registry (container : Container) (definition : Definition) (name : String)
    (raw : Bean) : (container.keep definition name raw).registry = container.registry := by
  unfold keep
  cases definition.scope with
  | singleton => rfl
  | prototype => rfl

@[simp] theorem keep_inCreation (container : Container) (definition : Definition) (name : String)
    (raw : Bean) : (container.keep definition name raw).inCreation = container.inCreation := by
  unfold keep
  cases definition.scope with
  | singleton => rfl
  | prototype => rfl

@[simp] theorem keep_properties (container : Container) (definition : Definition) (name : String)
    (raw : Bean) : (container.keep definition name raw).properties = container.properties := by
  unfold keep
  cases definition.scope with
  | singleton => rfl
  | prototype => rfl

@[simp] theorem keep_processors (container : Container) (definition : Definition) (name : String)
    (raw : Bean) : (container.keep definition name raw).processors = container.processors := by
  unfold keep
  cases definition.scope with
  | singleton => rfl
  | prototype => rfl

/-- A singleton is cached when it is kept. -/
theorem keep_singletons_self {container : Container} {definition : Definition} {name : String}
    (raw : Bean) (scope : definition.scope = .singleton) :
    (container.keep definition name raw).singletons.find? name = some raw := by
  simp [keep, scope, cache]

/-- Keeping a bean under a name that is not cached loses no cached bean. -/
theorem keep_singletons_of_uncached {container : Container} {definition : Definition}
    {name other : String} {raw bean : Bean} (uncached : container.singletons.find? name = none)
    (cached : container.singletons.find? other = some bean) :
    (container.keep definition name raw).singletons.find? other = some bean := by
  unfold keep
  cases definition.scope with
  | prototype => exact cached
  | singleton => exact Table.find?_insert_of_absent raw uncached cached

/-- What is cached once a bean was kept is this bean, or was cached before. -/
theorem of_keep_singletons {container : Container} {definition : Definition}
    {name other : String} {raw bean : Bean}
    (found : (container.keep definition name raw).singletons.find? other = some bean) :
    (other = name ∧ raw = bean) ∨ container.singletons.find? other = some bean := by
  unfold keep at found
  cases scope : definition.scope with
  | prototype =>
      rw [scope] at found
      exact .inr found
  | singleton =>
      rw [scope] at found
      rcases Table.find?_insert_eq_some_iff.1 found with isNew | ⟨_, before⟩
      · exact .inl isNew
      · exact .inr before

/-- A singleton is cached with the types that its definition lists. -/
theorem keep_casts_self {container : Container} {definition : Definition} {name : String}
    (raw : Bean) (scope : definition.scope = .singleton) :
    (container.keep definition name raw).casts.find? name = some definition.casts := by
  simp [keep, scope, cache]

theorem keep_casts_of_ne {container : Container} {definition : Definition} {name other : String}
    {raw : Bean} (differs : other ≠ name) :
    (container.keep definition name raw).casts.find? other = container.casts.find? other := by
  unfold keep
  cases definition.scope with
  | prototype => rfl
  | singleton => exact Table.find?_insert_of_ne _ _ differs

/-- Only a singleton is cached when it is kept. -/
theorem scope_of_keep {container : Container} {definition : Definition} {name : String}
    {raw bean : Bean} (uncached : container.singletons.find? name = none)
    (cached : (container.keep definition name raw).singletons.find? name = some bean) :
    definition.scope = .singleton := by
  cases scope : definition.scope with
  | singleton => rfl
  | prototype =>
      simp only [keep, scope] at cached
      rw [uncached] at cached
      cases cached

/-- The outermost request has an allowance for each phase of each definition. -/
theorem request_apply (name : String) (start : Container) :
    request name start = requestWithin (2 * start.registry.size + 1) name start := by
  unfold request
  exact bind_apply_ok (get_apply start)

/-- The bean came out of a constructor that was run for the request. -/
inductive Construction (request : Request) (definition : Definition) (name : String)
    (start : Container) : Bean → Container → Prop
  | intro {asked : Asked} {middle : Container} {supply : Supply} {arguments : List Value}
      {cells : List (String × Value)}
      (idle : name ∉ start.constructing)
      (asks : Asks request (start.beginConstruction name) asked middle)
      (gathers : Gathers start.registry start.properties
        (Sees request (start.beginConstruction name)) definition.recipe.points .empty asked
        (.ok supply))
      (yields : definition.recipe.Yields supply arguments cells) :
      Construction request definition name start
        (middle.heap.create definition.type arguments cells).1
        (((middle.withHeap (middle.heap.create definition.type arguments cells).2).endConstruction
          name).noted
            (.constructed name definition (middle.heap.create definition.type arguments cells).1))

theorem Construction.idle {request : Request} {definition : Definition} {name : String}
    {start built : Container} {raw : Bean}
    (construction : Construction request definition name start raw built) :
    name ∉ start.constructing := by
  cases construction with
  | intro idle => exact idle

/-- Why the recipe made no bean: its arguments were not resolved, or the method did not
take them. -/
inductive Spoiled (registry : Registry) (properties : PropertyStore) (definition : Definition)
    (name : String) (asked : Asked) : BeanError → Prop
  | unresolved {sees : Asked → Heap → Prop} {error : BeanError}
      (gathers : Gathers registry properties sees definition.recipe.points .empty asked
        (.error error)) :
      Spoiled registry properties definition name asked error
  | refused {sees : Asked → Heap → Prop} {supply : Supply} {method : Method}
      {inputs : List Input} {fault : ConstructionFault}
      (gathers : Gathers registry properties sees definition.recipe.points .empty asked
        (.ok supply))
      (recipe : definition.recipe = .calling method inputs)
      (fails : Recipe.run method inputs supply = .error fault) :
      Spoiled registry properties definition name asked (.construction name fault)

/-- What became of wiring and processing the bean: its fields were not resolved, or
the steps that finish it ran up to an end or a failure. -/
inductive Finishing (definition : Definition) (name : String) (raw : Bean)
    (sees : Asked → Heap → Prop) (asked : Asked) (middle : Container) :
    Except BeanError Unit → Heap → Prop
  | unresolved {error : BeanError}
      (gathers : Gathers middle.registry middle.properties sees definition.fields .empty asked
        (.error error)) :
      Finishing definition name raw sees asked middle (.error error) middle.heap
  | run {supply : Supply} {result : Except BeanError Unit} {heap : Heap}
      (gathers : Gathers middle.registry middle.properties sees definition.fields .empty asked
        (.ok supply))
      (ran : finish middle.processors definition name raw supply middle.heap = (result, heap)) :
      Finishing definition name raw sees asked middle result heap

/-- What became of a bean that a request tried to make. -/
inductive Making (request : Request) (definition : Definition) (name : String)
    (start : Container) : Except BeanError Handout → Container → Prop
  /-- The constructor of the name is running already. -/
  | busy (constructing : name ∈ start.constructing) :
      Making request definition name start (.error (.circular name)) start
  | unconstructed {asked : Asked} {middle : Container} {error : BeanError}
      (idle : name ∉ start.constructing)
      (asks : Asks request (start.beginConstruction name) asked middle)
      (spoiled : Spoiled start.registry start.properties definition name asked error) :
      Making request definition name start (.error error) (middle.endConstruction name)
  /-- A prototype of the name is in creation already. -/
  | refused {raw present : Bean} {built : Container}
      (construction : Construction request definition name start raw built)
      (pending : built.inCreation.find? name = some present)
      (scope : definition.scope = .prototype) :
      Making request definition name start (.error (.circular name)) built
  /-- The singleton of the name is in creation already. -/
  | shared {raw present : Bean} {built : Container}
      (construction : Construction request definition name start raw built)
      (pending : built.inCreation.find? name = some present)
      (scope : definition.scope = .singleton) :
      Making request definition name start (.ok ⟨present, definition.casts⟩)
        (built.noted (.handedOut name present))
  | abandoned {raw : Bean} {built middle : Container} {asked : Asked} {heap : Heap}
      {error : BeanError}
      (construction : Construction request definition name start raw built)
      (fresh : built.inCreation.find? name = none)
      (asks : Asks request ((built.noted (.entered name raw)).enter name raw) asked middle)
      (finishing : Finishing definition name raw
        (Sees request ((built.noted (.entered name raw)).enter name raw)) asked middle (.error error)
        heap) :
      Making request definition name start (.error error)
        (((middle.withHeap heap).leave name).noted (.abandoned name raw))
  | finished {raw : Bean} {built middle : Container} {asked : Asked} {heap : Heap}
      (construction : Construction request definition name start raw built)
      (fresh : built.inCreation.find? name = none)
      (asks : Asks request ((built.noted (.entered name raw)).enter name raw) asked middle)
      (finishing : Finishing definition name raw
        (Sees request ((built.noted (.entered name raw)).enter name raw)) asked middle (.ok ())
        heap) :
      Making request definition name start (.ok ⟨raw, definition.casts⟩)
        (((((middle.withHeap heap).leave name).keep definition name raw).noted
          (.committed name raw)).noted (.handedOut name raw))

/-- How a request was answered. -/
inductive Answering (request : Request) (name : String) (start : Container) :
    Except BeanError Handout → Container → Prop
  | cached {bean : Bean} (found : start.singletons.find? name = some bean) :
      Answering request name start (.ok ⟨bean, start.castsOf name⟩)
        (start.noted (.handedOut name bean))
  | unknown (uncached : start.singletons.find? name = none)
      (unregistered : start.registry.find? name = none) :
      Answering request name start (.error (.definitionNotFound name)) start
  | made {definition : Definition} {result : Except BeanError Handout} {final : Container}
      (uncached : start.singletons.find? name = none)
      (registered : start.registry.find? name = some definition)
      (making : Making request definition name start result final) :
      Answering request name start result final

section Cases

variable {request : Request} (keeps : KeepsConfiguration request)
include keeps

/-- A constructor fails, or it makes a new bean from what was resolved for it. -/
theorem construct_cases (definition : Definition) (name : String) (start : Container) :
    ∃ asked middle, Asks request start asked middle ∧
      ((∃ error, Spoiled start.registry start.properties definition name asked error ∧
          construct (resolveAll request) definition name start = (.error error, middle)) ∨
        ∃ supply arguments cells,
          Gathers start.registry start.properties (Sees request start) definition.recipe.points
            .empty asked (.ok supply) ∧
          definition.recipe.Yields supply arguments cells ∧
          construct (resolveAll request) definition name start =
            (.ok (middle.heap.create definition.type arguments cells).1,
              middle.withHeap (middle.heap.create definition.type arguments cells).2)) := by
  unfold construct
  cases recipe : definition.recipe with
  | blank =>
      exact ⟨[], start, .nil, .inr ⟨.empty, [], [], .all [] .nil .nil, ⟨rfl, rfl⟩, rfl⟩⟩
  | calling method inputs =>
      obtain ⟨asked, asks, gathers⟩ :=
        resolveAll_asking keeps (Recipe.calling method inputs).points start
      refine ⟨asked, _, asks, ?_⟩
      simp only [bind_apply]
      generalize resolveAll request (Recipe.calling method inputs).points start = outcome
        at gathers ⊢
      rw [← recipe] at gathers
      obtain ⟨result, middle⟩ := outcome
      cases result with
      | error error => exact .inl ⟨error, .unresolved gathers, rfl⟩
      | ok supply =>
          cases made : Recipe.run method inputs supply with
          | error fault =>
              exact .inl ⟨.construction name fault, .refused gathers recipe made,
                by simp [HeapM.make, made, withHeap]⟩
          | ok results =>
              obtain ⟨arguments, cells⟩ := results
              rw [recipe] at gathers
              refine .inr ⟨supply, arguments, cells, gathers, made, ?_⟩
              simp [HeapM.make, made, HeapM.create]

/-- Developing a bean resolves its fields and then runs the steps that finish it. -/
theorem develop_cases (definition : Definition) (name : String) (raw : Bean)
    (start : Container) :
    ∃ asked middle heap, Asks request start asked middle ∧
      Finishing definition name raw (Sees request start) asked middle
        (develop request definition name raw start).1 heap ∧
      (develop request definition name raw start).2 = middle.withHeap heap := by
  obtain ⟨asked, asks, gathers⟩ := resolveAll_asking keeps definition.fields start
  obtain ⟨sameRegistry, sameProperties⟩ := asks.configuration keeps
  rw [← sameRegistry, ← sameProperties] at gathers
  unfold develop
  simp only [bind_apply, get_apply, onHeap_apply]
  generalize resolveAll request definition.fields start = outcome at asks gathers ⊢
  obtain ⟨result, middle⟩ := outcome
  cases result with
  | error error => exact ⟨asked, middle, middle.heap, asks, .unresolved gathers, rfl⟩
  | ok supply => exact ⟨asked, middle, _, asks, .run gathers rfl, rfl⟩

/-- A bean that was constructed is given up for the one in creation, or developed. -/
theorem settle_cases {definition : Definition} {name : String} {start built : Container}
    {raw : Bean} (construction : Construction request definition name start raw built) :
    Making request definition name start (settle request definition name raw built).1
      (settle request definition name raw built).2 := by
  unfold settle
  rw [bind_apply_ok (get_apply built)]
  cases pending : built.inCreation.find? name with
  | some present =>
      cases scope : definition.scope with
      | prototype => exact .refused construction pending scope
      | singleton => exact .shared construction pending scope
  | none =>
      obtain ⟨asked, middle, heap, asks, finishing, ends⟩ :=
        develop_cases keeps definition name raw ((built.noted (.entered name raw)).enter name raw)
      simp only [developGuarded, commit, handOut, bind_apply, note_apply, tryCatch_apply,
        between_apply, modify_apply, ends]
      generalize (develop request definition name raw
        ((built.noted (.entered name raw)).enter name raw)).1 = result at finishing ⊢
      cases result with
      | error error => exact .abandoned construction pending asks finishing
      | ok _ => exact .finished construction pending asks finishing

/-- The constructor of an idle name fails, or a bean was constructed for the request. -/
theorem constructGuarded_cases (definition : Definition) {name : String} {start : Container}
    (idle : name ∉ start.constructing) :
    (∃ asked middle error, Asks request (start.beginConstruction name) asked middle ∧
      Spoiled start.registry start.properties definition name asked error ∧
      constructGuarded request definition name start =
        (.error error, middle.endConstruction name)) ∨
    ∃ raw ended, Construction request definition name start raw
        (ended.noted (.constructed name definition raw)) ∧
      constructGuarded request definition name start = (.ok raw, ended) := by
  obtain ⟨asked, middle, asks, ways⟩ :=
    construct_cases keeps definition name (start.beginConstruction name)
  rcases ways with ⟨error, spoiled, failed⟩ | ⟨supply, arguments, cells, gathers, yields, built⟩
  · refine .inl ⟨asked, middle, error, asks, spoiled, ?_⟩
    simp [constructGuarded, failed]
  · refine .inr ⟨_, _, .intro idle asks gathers yields, ?_⟩
    simp [constructGuarded, built]

/-- Making a bean goes one of the ways that `Making` lists. -/
theorem make_cases (definition : Definition) (name : String) (start : Container) :
    Making request definition name start (make request definition name start).1
      (make request definition name start).2 := by
  unfold make
  rw [bind_apply_ok (get_apply start)]
  split
  next constructing => exact .busy constructing
  next idle =>
    rcases constructGuarded_cases keeps definition idle with
      ⟨asked, middle, error, asks, spoiled, failed⟩ | ⟨raw, ended, construction, built⟩
    · rw [bind_apply_error failed]
      exact .unconstructed idle asks spoiled
    · rw [bind_apply_ok built, bind_apply_ok (note_apply _ _)]
      exact settle_cases keeps construction

/-- Answering a request goes one of the ways that `Answering` lists. -/
theorem answer_cases (name : String) (start : Container) :
    Answering request name start (answer request name start).1 (answer request name start).2 := by
  unfold answer
  rw [bind_apply_ok (get_apply start)]
  cases cached : start.singletons.find? name with
  | some bean => exact .cached cached
  | none =>
      cases registered : start.registry.find? name with
      | none => exact .unknown cached registered
      | some definition => exact .made cached registered (make_cases keeps definition name start)

end Cases
end Container
end BeanContainer
