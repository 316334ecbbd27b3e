import BeanContainer.Proofs.Request.Success
import BeanContainer.Proofs.Run.Identity
import BeanContainer.Proofs.Run.Rest

/-!
# The order of requests does not matter

If everything can be resolved, registered names can be requested from a fresh container in any
order.  Every request succeeds.  Afterwards the singletons that the names lead to are cached, wired
to each other, and nothing else is; so neither the cached names nor the wiring depend on the order.
-/

namespace BeanContainer
namespace Container

open Relation

/-- The bean cached under the first name holds the bean cached under the second one at a place
where its definition refers to the second name. -/
def Links (container : Container) (name : String) (place : Place) (next : String) : Prop :=
  ∃ definition point record target value,
    container.registry.find? name = some definition ∧ definition.Injects point place ∧
      point.LeadsTo container.registry next ∧
      container.singletons.find? name = some (.plain record) ∧
      container.singletons.find? next = some target ∧
      (container.heap.read record).at? place = some value ∧ target ∈ value.beans

/-- The container holds what requests for the names come to: the singletons that they lead to are
cached, references to a singleton hold the bean that is cached under its name, and beans of names
that lie on no cycle were made once. -/
structure Realizes (base : Container) (names : List String) (container : Container) : Prop where
  registry : container.registry = base.registry
  cached : ∀ name, name ∈ container.singletons.keys ↔
    base.IsSingleton name ∧ ∃ first ∈ names, base.registry.Reaches first name
  wired : ∀ name bean, container.singletons.find? name = some bean → ∃ definition record,
    base.registry.find? name = some definition ∧ bean = .plain record ∧
      ∀ place, definition.IsWired base.registry base.properties
        (fun next held => base.IsSingleton next → container.singletons.find? next = some held)
        (container.heap.read record) place
  once : ∀ name ∈ container.singletons.keys, ¬ base.OnCycle name →
    container.heap.constructions name = base.heap.constructions name + 1

/-! ## Between requests -/

/-- A fresh container is consistent with itself. -/
theorem IsFresh.consistent {base : Container} (fresh : base.IsFresh)
    (harmless : base.HasOriginals → base.heap.Harmless) : Consistent base base where
  registry := rfl
  properties := rfl
  processors := rfl
  behaviours := rfl
  harmless := harmless
  cached name bean found := by
    rw [fresh.singletons] at found
    cases found
  creating name bean found := by
    rw [fresh.inCreation] at found
    cases found
  apart name other record second owns := by
    rcases owns with cached | creating
    · rw [fresh.singletons] at cached
      cases cached
    · rw [fresh.inCreation] at creating
      cases creating

theorem IsFresh.counted {base : Container} (fresh : base.IsFresh) : Counted base base := by
  intro name _ _
  have unowned : ¬ base.IsOwned name := by simp [IsOwned, fresh.singletons, fresh.inCreation]
  rw [if_neg unowned, Nat.add_zero]

/-- Between requests only cached beans are owned. -/
theorem Owns.cached {container : Container} {name : String} {bean : Bean}
    (idle : container.inCreation = .empty) (owns : container.Owns name bean) :
    container.singletons.find? name = some bean := by
  rcases owns with cached | creating
  · exact cached
  · rw [idle] at creating
    cases creating

/-- Between requests, all that a covered name leads to is covered. -/
theorem Covered.reaches {base container : Container} (consistent : Consistent base container)
    (idle : container.inCreation = .empty) {name other : String}
    (covered : Covered base container name) (reaches : base.registry.Reaches name other) :
    Covered base container other := by
  induction reaches with
  | refl => exact covered
  | tail _ depends ih =>
      cases ih with
      | owned _ owns =>
          obtain ⟨_, _, _, _, _, _, complete⟩ := consistent.cached _ _ (owns.cached idle)
          exact complete.covered _ depends
      | prototype _ each => exact each _ depends

/-- A run of requests for names asks for these names. -/
theorem run_requests (start : Container) (names : List String) :
    ∃ asked : Asked, asked.map (·.1) = names ∧
      Asks request start asked (start.run (names.map .request)) := by
  induction names generalizing start with
  | nil => exact ⟨[], rfl, .nil⟩
  | cons name names ih =>
      obtain ⟨asked, same, asks⟩ := ih (request name start).2
      exact ⟨(name, (request name start).1) :: asked, congrArg (name :: ·) same, .cons rfl asks⟩

section Requests

variable {base : Container} (fresh : base.IsFresh) (resolvable : base.Resolvable)
  {names : List String}
  (registered : ∀ name ∈ names, ∃ definition, base.registry.find? name = some definition)
include fresh resolvable registered

/-- Requests for registered names are fulfilled in a fresh container. -/
theorem run_fulfilled : ∃ asked : Asked, asked.map (·.1) = names ∧
    Fulfilled base asked base (base.run (names.map .request)) := by
  obtain ⟨asked, same, asks⟩ := run_requests base names
  refine ⟨asked, same,
    asks.fulfilled ?_ (fresh.consistent resolvable.originals) fresh.counted ?_⟩
  · exact fun _ middle _ name => request_fulfills resolvable name middle
  · intro entry member
    exact ⟨.of_idle fresh.constructing fresh.inCreation,
      registered entry.1 (same ▸ List.mem_map_of_mem member)⟩

/-- The next request succeeds. -/
theorem request_succeeds {name : String}
    (isRegistered : ∃ definition, base.registry.find? name = some definition) :
    ∃ handout, (request name (base.run (names.map .request))).1 = .ok handout := by
  obtain ⟨asked, _, asks⟩ := run_requests base names
  obtain ⟨_, _, fulfilled⟩ := run_fulfilled fresh resolvable registered
  have restores := asks.restores request_restores
  have ready : Ready base (base.run (names.map .request)) name :=
    .of_idle (restores.constructing.trans fresh.constructing)
      (restores.inCreation.trans fresh.inCreation)
  have next := request_fulfills resolvable name _ fulfilled.consistent fulfilled.counted ready
    isRegistered
  obtain ⟨handout, isOk, _⟩ := next.provided _ (List.mem_singleton_self _)
  exact ⟨handout, isOk⟩

/-- The requests realize their names. -/
theorem run_realizes : Realizes base names (base.run (names.map .request)) := by
  obtain ⟨_, _, asks⟩ := run_requests base names
  obtain ⟨asked, same, fulfilled⟩ := run_fulfilled fresh resolvable registered
  have consistent := fulfilled.consistent
  have idle : (base.run (names.map .request)).inCreation = .empty :=
    (asks.restores request_restores).inCreation.trans fresh.inCreation
  have isCached : ∀ name, name ∈ (base.run (names.map .request)).singletons.keys ↔
      ∃ bean, (base.run (names.map .request)).singletons.find? name = some bean :=
    fun _ => Table.mem_keys_iff.trans Option.isSome_iff_exists
  constructor
  · exact consistent.registry
  · intro name
    rw [isCached]
    constructor
    · rintro ⟨bean, found⟩
      obtain ⟨definition, _, isRegistered, scope, _⟩ := consistent.cached name bean found
      have absent : base.singletons.find? name = none := by
        rw [fresh.singletons]
        rfl
      obtain ⟨first, isFirst, reaches⟩ := fulfilled.introduces name bean found absent
      exact ⟨⟨definition, isRegistered, scope⟩, first, same ▸ isFirst, reaches⟩
    · rintro ⟨singleton, first, isFirst, reaches⟩
      rw [← same] at isFirst
      obtain ⟨entry, isEntry, rfl⟩ := List.mem_map.1 isFirst
      cases (fulfilled.covered entry isEntry).reaches consistent idle reaches with
      | owned _ owns => exact ⟨_, owns.cached idle⟩
      | prototype isPrototype => exact absurd isPrototype (not_isPrototype singleton)
  · intro name bean found
    obtain ⟨definition, record, isRegistered, _, _, isRecord, complete⟩ :=
      consistent.cached name bean found
    refine ⟨definition, record, isRegistered, isRecord, fun place => ?_⟩
    exact (complete.wired place).mono
      (fun next held provides singleton => (provides.owns singleton).cached idle) rfl
  · intro name member offCycle
    obtain ⟨bean, found⟩ := (isCached name).1 member
    obtain ⟨definition, _, isRegistered, scope, _⟩ := consistent.cached name bean found
    have owned : (base.run (names.map .request)).IsOwned name := by
      refine .inl ?_
      rw [found]
      nofun
    have counts := fulfilled.counted name ⟨definition, isRegistered, scope⟩ offCycle
    rw [if_pos owned] at counts
    exact counts

end Requests

/-! ## Wiring -/

/-- A value that a point takes holds the bean that is provided for a name of the point. -/
theorem mem_beans_of_takes {registry : Registry} {properties : PropertyStore}
    {point : InjectionPoint} {provides : String → Bean → Prop} {value : Value} {name : String}
    (takes : point.Takes registry properties provides value)
    (leads : point.LeadsTo registry name) : ∃ bean ∈ value.beans, provides name bean := by
  obtain ⟨others, isOthers, member⟩ := leads
  unfold InjectionPoint.Takes at takes
  cases dependency : point.dependency with
  | property reference type =>
      rw [InjectionPoint.names, dependency] at isOthers
      cases isOthers
      cases member
  | bean reference target =>
      rw [dependency] at takes
      obtain ⟨names, beans, view, isNames, provided, injects⟩ := takes
      rw [isNames] at isOthers
      cases isOthers
      obtain ⟨bean, isBean, isProvided⟩ := exists_of_forall₂_left provided member
      have fits := InjectionPoint.length_names_le dependency isNames
      rw [provided.length_eq] at fits
      exact ⟨bean, (BeanTarget.beans_inject fits injects).mem_iff.2 isBean, isProvided⟩

/-- Which cached beans hold which others can be told without the order of the requests. -/
theorem Realizes.links_iff {base container : Container} {names : List String}
    (realizes : Realizes base names container) {name next : String} {place : Place} :
    container.Links name place next ↔
      (base.IsSingleton name ∧ ∃ first ∈ names, base.registry.Reaches first name) ∧
        base.IsSingleton next ∧ ∃ definition point, base.registry.find? name = some definition ∧
          definition.Injects point place ∧ point.LeadsTo base.registry next := by
  have isCached : ∀ name, name ∈ container.singletons.keys ↔
      ∃ bean, container.singletons.find? name = some bean :=
    fun _ => Table.mem_keys_iff.trans Option.isSome_iff_exists
  rw [← realizes.cached name, isCached]
  constructor
  · rintro ⟨definition, point, record, target, value, registered, injects, leads, cached,
      isTarget, _⟩
    rw [realizes.registry] at registered leads
    have singleton := ((realizes.cached next).1 ((isCached next).2 ⟨target, isTarget⟩)).1
    exact ⟨⟨_, cached⟩, singleton, definition, point, registered, injects, leads⟩
  · rintro ⟨⟨bean, cached⟩, singleton, definition, point, registered, injects, leads⟩
    obtain ⟨known, record, isKnown, rfl, wired⟩ := realizes.wired name bean cached
    rw [registered] at isKnown
    cases isKnown
    obtain ⟨value, takes, holds⟩ := wired place point injects
    obtain ⟨target, inside, provided⟩ := mem_beans_of_takes takes leads
    rw [← realizes.registry] at registered leads
    refine holds.elim (fun held => ?_) fun held => ?_
    · exact ⟨definition, point, record, target, value, registered, injects, leads, cached,
        provided singleton, held, inside⟩
    · exact ⟨definition, point, record, target, _, registered, injects, leads, cached,
        provided singleton, held, value.beans_lift ▸ inside⟩

/-- Cycles are harmless if dependencies never lead to a name of higher rank, and lead to one of
the same rank only from fields of singletons. -/
theorem cycles_of_rank {container : Container} (rank : String → Nat)
    (descends : ∀ name next, container.registry.DependsOn name next → rank next < rank name ∨
      rank next = rank name ∧ container.IsSingleton name ∧
        ¬ container.registry.DependsByArgument name next) {name next : String}
    (depends : container.registry.DependsOn name next)
    (returns : container.registry.Reaches next name) :
    container.IsSingleton name ∧ ¬ container.registry.DependsByArgument name next := by
  have falls : ∀ {other}, container.registry.Reaches next other → rank other ≤ rank next := by
    intro other reaches
    induction reaches with
    | refl => exact Nat.le_refl _
    | tail _ step ih =>
        rcases descends _ _ step with lower | ⟨same, _⟩
        · omega
        · omega
  rcases descends name next depends with lower | ⟨_, harmless⟩
  · exact absurd (falls returns) (Nat.not_le_of_lt lower)
  · exact harmless

/-- A concert has a title, is constructed from a score, and takes all players. -/
def concert : Declaration where
  type := ⟨"Concert"⟩
  fields :=
    [⟨"title", "title", .property (.scalar .text), "value:$\x7btitle:=untitled\x7d"⟩,
      ⟨"players", "players", .bean ⟨⟨"Player"⟩, true⟩, "autowire:?"⟩]
  methods := [⟨"new_concert", [.bean ⟨"Score"⟩], fun _ => .ok []⟩]
  arguments := [.wired (.bean ⟨⟨"Score"⟩, false⟩) "autowire:Score" false]

/-- Two players that refer to each other, a score for each use, which refers to one of them, and
the concert. -/
def ensemble : List Operation :=
  [.register "Violin" { referring "Violin" "Cello" with implements := [⟨"Player"⟩] },
    .register "Cello" { referring "Cello" "Violin" with implements := [⟨"Player"⟩] },
    .register "Score" { referring "Score" "Violin" with scope := .given .prototype },
    .register "Concert" concert]

namespace ensemble

theorem isFresh : ((new {}).run ensemble).IsFresh := run_isFresh {} (by simp [ensemble, Prepares])

/-- The players depend on each other, the score on them, and the concert on all. -/
def rank (name : String) : Nat := if name = "Concert" then 2 else if name = "Score" then 1 else 0

theorem descends {name next : String}
    (depends : ((new {}).run ensemble).registry.DependsOn name next) :
    rank next < rank name ∨ rank next = rank name ∧ ((new {}).run ensemble).IsSingleton name ∧
      ¬ ((new {}).run ensemble).registry.DependsByArgument name next :=
  Registry.forall_dependsOn (fun name next => rank next < rank name ∨ rank next = rank name ∧
    ((new {}).run ensemble).IsSingleton name ∧
      ¬ ((new {}).run ensemble).registry.DependsByArgument name next) (by decide +kernel) depends

theorem references : ∀ entry ∈ ((new {}).run ensemble).registry.visit,
    ∀ point ∈ entry.2.recipe.points ++ entry.2.fields,
      point.IsResolvable ((new {}).run ensemble).registry ((new {}).run ensemble).properties := by
  decide +kernel

/-- What is registered was declared without a constructor, or as the concert. -/
theorem declares {name : String} {definition : Definition}
    (registered : ((new {}).run ensemble).registry.find? name = some definition) :
    ∃ declaration : Declaration, declaration.define = .ok definition ∧
      (declaration.fields.map (·.cell)).Nodup ∧
        (declaration.methods = [] ∨ declaration = concert) := by
  obtain ⟨declaration, member, declared⟩ := run_declares {} ensemble name definition registered
  refine ⟨declaration, declared, ?_⟩
  simp only [ensemble, List.mem_cons, Operation.register.injEq, List.not_mem_nil,
    or_false] at member
  rcases member with ⟨_, rfl⟩ | ⟨_, rfl⟩ | ⟨_, rfl⟩ | ⟨_, rfl⟩
  · exact ⟨by decide, .inl rfl⟩
  · exact ⟨by decide, .inl rfl⟩
  · exact ⟨by decide, .inl rfl⟩
  · exact ⟨by decide, .inr rfl⟩

/-- The constructor of the concert is the only one. -/
theorem constructor_eq {name : String} {definition : Definition} {method : Method}
    {inputs : List Input}
    (registered : ((new {}).run ensemble).registry.find? name = some definition)
    (recipe : definition.recipe = .calling method inputs) :
    method = ⟨"new_concert", [.bean ⟨"Score"⟩], fun _ => .ok []⟩ ∧
      Input.ofArguments concert.type method 0 concert.arguments method.parameters =
        .ok inputs := by
  obtain ⟨declaration, declared, _, without | rfl⟩ := declares registered
  · rw [Declaration.recipe_of_define declared without] at recipe
    cases recipe
  · have chosen := (Declaration.parts_of_define declared).2
    rw [recipe] at chosen
    obtain ⟨member, isInputs⟩ := Recipe.method_of_choose chosen
    exact ⟨List.mem_singleton.1 member, isInputs⟩

/-- The concert is constructed whenever its score was resolved. -/
theorem constructs {method : Method} {inputs : List Input} {supply : Supply}
    (isMethod : method = ⟨"new_concert", [.bean ⟨"Score"⟩], fun _ => .ok []⟩)
    (isInputs : Input.ofArguments concert.type method 0 concert.arguments method.parameters =
      .ok inputs)
    (supplied : ∀ point ∈ (Recipe.calling method inputs).points, ∃ value,
      supply.find? point.index = some value ∧
        value.type = point.dependency.slot.valueType) :
    ∃ results, Recipe.run method inputs supply = .ok results := by
  subst isMethod
  have computed : ∃ point, Input.ofArguments concert.type
      ⟨"new_concert", [.bean ⟨"Score"⟩], fun _ => .ok []⟩ 0 concert.arguments
      [.bean ⟨"Score"⟩] = .ok [.injected point false] ∧ point.index = 0 ∧
        point.dependency.slot.valueType = .bean ⟨"Score"⟩ := ⟨_, rfl, rfl, rfl⟩
  obtain ⟨point, equal, isAt, slot⟩ := computed
  rw [equal] at isInputs
  cases isInputs
  obtain ⟨value, found, typed⟩ := supplied point (List.mem_singleton_self point)
  rw [isAt] at found
  rw [slot] at typed
  refine ⟨([value], []), ?_⟩
  simp only [Recipe.run, Input.prepareAll, Input.prepare, Method.arguments, found, typed, if_true]
  rfl

/-- The beans have no callbacks and stand in for no others. -/
theorem quiet : ((new {}).run ensemble).heap.behaviours = [] := by rfl

theorem unoriginal : ¬ ((new {}).run ensemble).HasOriginals := by
  rintro ⟨name, definition, _, original⟩
  rw [Heap.behaviour, quiet] at original
  cases original

theorem resolvable : ((new {}).run ensemble).Resolvable where
  declared name definition registered := by
    obtain ⟨declaration, declared, distinct, _⟩ := declares registered
    refine ⟨declaration, declared, distinct, fun field _ arguments presets => ?_⟩
    cases recipe : definition.recipe with
    | blank =>
        rw [recipe] at presets
        exact presets
    | calling method inputs =>
        obtain ⟨rfl, _⟩ := constructor_eq registered recipe
        rw [recipe] at presets
        obtain ⟨cells, called, member⟩ := presets
        cases called
        cases member
  required := by decide +kernel
  references name definition registered :=
    references (name, definition) (Table.find?_eq_some_iff.1 registered)
  constructors name definition method inputs registered recipe supply supplied := by
    obtain ⟨isMethod, isInputs⟩ := constructor_eq registered recipe
    rw [recipe] at supplied
    refine constructs isMethod isInputs fun point isPoint => ?_
    obtain ⟨value, found, takes⟩ := supplied point isPoint
    exact ⟨value, found, takes.type_eq⟩
  callbacks name definition _ cause failing := by
    rw [Heap.behaviour, quiet] at failing
    cases failing
  originals := unoriginal.elim
  presets := unoriginal.elim
  unprocessed := by rfl
  cycles _ _ := cycles_of_rank rank fun _ _ => descends

theorem registered : ∀ name ∈ ["Concert", "Cello"], ∃ definition,
    ((new {}).run ensemble).registry.find? name = some definition := by
  have found : ∀ name ∈ ["Concert", "Cello"],
      (((new {}).run ensemble).registry.find? name).isSome = true := by
    decide +kernel
  exact fun name member => Option.isSome_iff_exists.1 (found name member)

end ensemble

end Container
end BeanContainer
