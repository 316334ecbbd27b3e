import BeanContainer.Container.Run
import BeanContainer.Proofs.Heap.Extension
import BeanContainer.Proofs.Request.Bookkeeping

/-!
# What operations do

Between requests a container changes in few ways: a definition comes or goes, a
finished bean is cached, or the container is configured.  All other operations make
requests and may then continue the heap.  A fact that each of these ways keeps holds
after every run.
-/

namespace BeanContainer

open Running ContainerM

namespace Container

/-- Creating singletons ahead makes requests one after the other. -/
theorem createEach_asks (deadline : Option Nat) (names : List String) (start : Container) :
    ∃ asked, Asks request start asked (createEach deadline names start).2 := by
  induction names generalizing start with
  | nil => exact ⟨[], .nil⟩
  | cons name names ih =>
      obtain ⟨asked, rest⟩ := ih (request name start).2
      have attempted : attempt (request name) start =
          (.ok (request name start).1, (request name start).2) := rfl
      unfold createEach
      simp only [bind_apply, attempted, get_apply]
      split
      · exact ⟨[_], .cons rfl .nil⟩
      · generalize outcome : request name start = answered at rest
        obtain ⟨result, middle⟩ := answered
        cases result with
        | error error => exact ⟨[_], .cons outcome .nil⟩
        | ok handout => exact ⟨_, .cons outcome rest⟩

/-- Pre-instantiation makes requests and then only notes whom it notified. -/
theorem preInstantiate_asks {adds : Event → Prop} (isAdded : ∀ bean, adds (.notified bean))
    (limit : Option Nat) (start : Container) :
    ∃ asked middle heap, Asks request start asked middle ∧
      Heap.Extends (fun _ => False) adds middle.heap heap ∧
        (preInstantiate limit start).2 = middle.withHeap heap := by
  obtain ⟨asked, asks⟩ := createEach_asks
    (limit.map fun limit => start.heap.elapsed + limit) start.eagerNames start
  unfold preInstantiate
  simp only [bind_apply, get_apply, onHeap_apply]
  generalize createEach (limit.map fun limit => start.heap.elapsed + limit) start.eagerNames start =
    outcome at asks ⊢
  obtain ⟨result, middle⟩ := outcome
  cases result with
  | error error => exact ⟨asked, middle, middle.heap, asks, .refl _, rfl⟩
  | ok _ =>
      have extended := notifyEach_extends isAdded middle.singletons.entries middle.heap
      exact ⟨asked, middle, _, asks, extended, rfl⟩

theorem requestAs_asks (name : String) (target : TypeName) (start : Container) :
    Asks request start [(name, (request name start).1)] (requestAs name target start).2 := by
  unfold requestAs
  rw [bind_apply]
  generalize outcome : request name start = answered
  obtain ⟨result, middle⟩ := answered
  cases result with
  | error error => exact .cons outcome .nil
  | ok handout =>
      simp only []
      cases handout.casts.cast? handout.bean target with
      | none => exact .cons outcome .nil
      | some value => exact .cons outcome .nil

/-- The end of the beans' lives adds nothing but that they were told. -/
theorem destroy_extends {adds : Event → Prop} (isAdded : ∀ bean name, adds (.destroyed bean name))
    (container : Container) :
    Heap.Extends (fun _ => False) adds container.heap container.destroy.heap := by
  unfold destroy
  simp only []
  generalize container.finished.entries = entries
  generalize container.heap = heap
  induction entries generalizing heap with
  | nil => exact .refl heap
  | cons entry entries ih =>
      rw [List.foldl_cons]
      cases told : entry.2.destroy entry.1 heap with
      | none => simpa using ih heap
      | some later => simpa using (Bean.destroy_extends isAdded told).trans (ih later)

end Container

open Container

/-- What the operation made of the container. -/
inductive Operation.Effect : Operation → Container → Container → Prop
  | refused {operation : Operation} {before : Container} : Effect operation before before
  | registers {name : String} {declaration : Declaration} {definition : Definition}
      {before : Container} (declared : declaration.define = .ok definition)
      (free : before.registry.find? name = none) :
      Effect (.register name declaration) before
        { before with
          registry.definitions := before.registry.definitions.insert name definition }
  | removes {name : String} {before : Container} :
      Effect (.remove name) before
        { before with registry.definitions := before.registry.definitions.erase name }
  | caches {name : String} {bean : Bean} {before : Container}
      (free : before.singletons.find? name = none) :
      Effect (.registerSingleton name bean) before
        (before.cache name bean (Casts.identity bean.type))
  | configures {operation : Operation} {before : Container} (visiting : Visiting)
      (properties : PropertyStore) (processors : Chain) (scopes : Table String String) :
      Effect operation before
        { before with
          registry := before.registry.arrange visiting
          properties, processors, scopes }
  | asks {operation : Operation} {before middle : Container} {asked : Asked} {heap : Heap}
      (asks : Asks Container.request before asked middle)
      (continues : middle.heap.Continues heap) :
      Effect operation before (middle.withHeap heap)

namespace Operation

/-! What an operation leaves alone if it is accepted, it leaves alone if it is refused too. -/

theorem perform_register (name : String) (declaration : Declaration) (container : Container) :
    ∃ registry, (Operation.register name declaration).perform container =
      { container with registry } := by
  simp only [perform, Container.register]
  cases declaration.define with
  | error error => exact ⟨container.registry, rfl⟩
  | ok definition =>
      simp only []
      cases container.registry.register name definition with
      | error error => exact ⟨container.registry, rfl⟩
      | ok registry => exact ⟨registry, rfl⟩

theorem perform_remove (name : String) (container : Container) :
    ∃ registry, (Operation.remove name).perform container = { container with registry } := by
  simp only [perform, Container.remove]
  cases container.registry.remove name with
  | error error => exact ⟨container.registry, rfl⟩
  | ok registry => exact ⟨registry, rfl⟩

theorem perform_registerSingleton (name : String) (bean : Bean) (container : Container) :
    ∃ singletons casts, (Operation.registerSingleton name bean).perform container =
      { container with singletons, casts } := by
  simp only [perform, Container.registerSingleton]
  split
  · exact ⟨container.singletons, container.casts, rfl⟩
  · exact ⟨_, _, rfl⟩

theorem perform_registerScope (name scope : String) (container : Container) :
    ∃ scopes, (Operation.registerScope name scope).perform container =
      { container with scopes } := by
  simp only [perform, Container.registerScope]
  split
  · exact ⟨container.scopes, rfl⟩
  · exact ⟨_, rfl⟩

theorem register_effect (name : String) (declaration : Declaration) (container : Container) :
    Effect (.register name declaration) container
      ((Operation.register name declaration).perform container) := by
  cases declared : declaration.define with
  | error error =>
      simp only [perform, declared]
      exact .refused
  | ok definition =>
      cases free : container.registry.find? name with
      | some present =>
          have taken : container.registry.definitions.contains name = true :=
            congrArg Option.isSome free
          simp only [perform, declared, Container.register, Registry.register, taken]
          exact .refused
      | none =>
          have absent : container.registry.definitions.contains name = false :=
            congrArg Option.isSome free
          simp only [perform, declared, Container.register, Registry.register, absent]
          exact .registers declared free

/-- A declared definition is registered under a name that is not taken. -/
theorem find?_register {name : String} {declaration : Declaration} {definition : Definition}
    (declared : declaration.define = .ok definition) {container : Container}
    (free : container.registry.find? name = none) :
    ((Operation.register name declaration).perform container).registry.find? name =
      some definition := by
  have absent : container.registry.definitions.contains name = false := congrArg Option.isSome free
  simp only [perform, declared, Container.register, Registry.register, absent]
  exact Table.find?_insert_self _ _ _

theorem remove_effect (name : String) (container : Container) :
    Effect (.remove name) container ((Operation.remove name).perform container) := by
  simp only [perform, Container.remove, Registry.remove]
  split
  · exact .removes
  · exact .refused

theorem registerSingleton_effect (name : String) (bean : Bean) (container : Container) :
    Effect (.registerSingleton name bean) container
      ((Operation.registerSingleton name bean).perform container) := by
  cases free : container.singletons.find? name with
  | some present =>
      have taken : container.singletons.contains name = true := congrArg Option.isSome free
      simp only [perform, Container.registerSingleton, taken]
      exact .refused
  | none =>
      have absent : container.singletons.contains name = false := congrArg Option.isSome free
      simp only [perform, Container.registerSingleton, absent]
      exact .caches free

/-- Every operation has one of the effects. -/
theorem perform_effect (operation : Operation) (container : Container) :
    operation.Effect container (operation.perform container) := by
  have idle : ∀ {operation : Operation} {heap : Heap}, container.heap.Continues heap →
      operation.Effect container (container.withHeap heap) := .asks .nil
  cases operation with
  | register name declaration => exact register_effect name declaration container
  | remove name => exact remove_effect name container
  | registerSingleton name bean => exact registerSingleton_effect name bean container
  | arrange visiting => exact .configures visiting _ _ _
  | addProcessor processor => exact .configures _ _ _ _
  | addOwnedProcessor processor => exact .configures _ _ _ _
  | registerScope name scope =>
      obtain ⟨_, performed⟩ := perform_registerScope name scope container
      rw [performed]
      exact .configures _ _ _ _
  | setProperty key document => exact .configures _ _ _ _
  | request name => exact .asks (.cons rfl .nil) (.refl _)
  | requestAs name target => exact .asks (requestAs_asks name target container) (.refl _)
  | preInstantiate limit =>
      obtain ⟨asked, middle, heap, asks, continues, ends⟩ :=
        @preInstantiate_asks (fun event => ¬ event.IsOfRequest) (fun _ => not_false) limit container
      simp only [perform, ends]
      exact .asks asks continues
  | destroy => exact idle (destroy_extends (fun _ _ => not_false) container)
  | create type arguments cells => exact idle (HeapM.Continues.create type arguments cells _)
  | setBehaviour type behaviour =>
      exact idle ⟨fun _ contents found => ⟨contents, found, rfl, fun _ => rfl⟩, [], by
        simp [Heap.setBehaviour], by simp⟩

/-- An operation makes requests, and after them it only notes which beans were created outside of
the container, notified or told of their destruction. -/
theorem perform_extends {adds : Event → Prop} (created : ∀ bean, adds (.created bean))
    (notified : ∀ bean, adds (.notified bean)) (destroyed : ∀ bean name, adds (.destroyed bean name))
    (operation : Operation) (container : Container) :
    ∃ asked middle, Asks Container.request container asked middle ∧
      Heap.Extends (fun _ => False) adds middle.heap (operation.perform container).heap := by
  have idle : ∀ {after : Container}, Heap.Extends (fun _ => False) adds container.heap after.heap →
      ∃ asked middle, Asks Container.request container asked middle ∧
        Heap.Extends (fun _ => False) adds middle.heap after.heap :=
    fun extended => ⟨[], container, .nil, extended⟩
  have unchanged : ∀ {after : Container}, after.heap = container.heap →
      ∃ asked middle, Asks Container.request container asked middle ∧
        Heap.Extends (fun _ => False) adds middle.heap after.heap :=
    fun same => idle (same ▸ .refl _)
  cases operation with
  | register name declaration =>
      obtain ⟨_, performed⟩ := perform_register name declaration container
      rw [performed]
      exact unchanged rfl
  | remove name =>
      obtain ⟨_, performed⟩ := perform_remove name container
      rw [performed]
      exact unchanged rfl
  | registerSingleton name bean =>
      obtain ⟨_, _, performed⟩ := perform_registerSingleton name bean container
      rw [performed]
      exact unchanged rfl
  | arrange visiting => exact unchanged rfl
  | addProcessor processor => exact unchanged rfl
  | addOwnedProcessor processor => exact unchanged rfl
  | registerScope name scope =>
      obtain ⟨_, performed⟩ := perform_registerScope name scope container
      rw [performed]
      exact unchanged rfl
  | setProperty key document => exact unchanged rfl
  | request name => exact ⟨_, _, .cons rfl .nil, .refl _⟩
  | requestAs name target => exact ⟨_, _, requestAs_asks name target container, .refl _⟩
  | preInstantiate limit =>
      obtain ⟨asked, middle, heap, asks, extended, ends⟩ :=
        preInstantiate_asks notified limit container
      refine ⟨asked, middle, asks, ?_⟩
      simp only [perform, ends]
      exact extended
  | destroy => exact idle (destroy_extends destroyed container)
  | create type arguments cells => exact idle (.create _ _ _ _ created)
  | setBehaviour type behaviour =>
      exact idle ⟨fun _ contents found => ⟨contents, found, rfl, fun _ => rfl⟩, [], by
        simp [perform, Heap.setBehaviour], by simp⟩

end Operation

namespace Container

/-- What all effects of the operations keep holds after a run. -/
theorem run_holds (holds : Container → Prop) {operations : List Operation}
    {container : Container} (start : holds container)
    (keeps : ∀ operation ∈ operations, ∀ {before after}, operation.Effect before after →
      holds before → holds after) : holds (container.run operations) := by
  induction operations generalizing container with
  | nil => exact start
  | cons operation operations ih =>
      refine ih ?_ fun other member => keeps other (List.mem_cons_of_mem _ member)
      exact keeps operation List.mem_cons_self (operation.perform_effect container) start

/-- The operations of a run may be cut anywhere. -/
theorem run_append (container : Container) (earlier later : List Operation) :
    container.run (earlier ++ later) = (container.run earlier).run later :=
  List.foldl_append

/-- All registered definitions were declared by operations of the list. -/
def Declares (operations : List Operation) (container : Container) : Prop :=
  ∀ name definition, container.registry.find? name = some definition →
    ∃ declaration : Declaration, .register name declaration ∈ operations ∧
      declaration.define = .ok definition

theorem Declares.effect {operations : List Operation} {operation : Operation}
    (member : operation ∈ operations) {before after : Container}
    (effect : operation.Effect before after) (declares : Declares operations before) :
    Declares operations after := by
  intro name definition found
  cases effect with
  | refused => exact declares name definition found
  | registers declared =>
      rcases Table.find?_insert_eq_some_iff.1 found with ⟨rfl, rfl⟩ | ⟨_, earlier⟩
      · exact ⟨_, member, declared⟩
      · exact declares name definition earlier
  | removes => exact declares name definition (Table.find?_erase_eq_some_iff.1 found).2
  | caches => exact declares name definition found
  | configures => exact declares name definition found
  | asks asks =>
      refine declares name definition ?_
      rw [← (asks.restores request_restores).registry]
      exact found

/-- Every definition that is registered after a run was declared in it. -/
theorem run_declares (properties : PropertyStore) (operations : List Operation) :
    Declares operations ((new properties).run operations) :=
  run_holds (Declares operations) nofun fun _ member => Declares.effect member

end Container
end BeanContainer
