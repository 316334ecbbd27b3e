import BeanContainer.Proofs.Request.Consistency
import BeanContainer.Proofs.Request.Depth

/-!
# Requests that are fulfilled

A request is ready if every mark was set on a chain of dependencies that leads to its name.  It
is fulfilled if it hands out a bean that may be injected for its name, caches nothing but what
its name leads to, and leaves a consistent container.  Points are resolved by requests that are
fulfilled.
-/

namespace BeanContainer
namespace Container

open Relation

/-! ## Ready requests -/

/-- Each name that is constructing or in creation has a dependency that leads to the name, by an
argument if it is constructing. -/
structure Ready (base container : Container) (name : String) : Prop where
  constructing : ∀ other ∈ container.constructing, ∃ next,
    base.registry.DependsByArgument other next ∧ base.registry.Reaches next name
  inCreation : ∀ other, container.inCreation.find? other ≠ none → ∃ next,
    base.registry.DependsOn other next ∧ base.registry.Reaches next name

namespace Ready

variable {base container : Container} {name next : String}

/-- Between requests all names are ready. -/
theorem of_idle (constructing : container.constructing = [])
    (inCreation : container.inCreation = .empty) : Ready base container name where
  constructing other marked := by
    rw [constructing] at marked
    cases marked
  inCreation other marked := by
    rw [inCreation] at marked
    exact absurd rfl marked

theorem congr {other : Container} (ready : Ready base container name)
    (constructing : other.constructing = container.constructing)
    (inCreation : other.inCreation = container.inCreation) : Ready base other name where
  constructing := by
    rw [constructing]
    exact ready.constructing
  inCreation := by
    rw [inCreation]
    exact ready.inCreation

/-- The dependencies of a name that is ready are ready. -/
theorem step (ready : Ready base container name) (depends : base.registry.DependsOn name next) :
    Ready base container next where
  constructing other marked := by
    obtain ⟨first, byArgument, leads⟩ := ready.constructing other marked
    exact ⟨first, byArgument, leads.tail depends⟩
  inCreation other marked := by
    obtain ⟨first, dependsFirst, leads⟩ := ready.inCreation other marked
    exact ⟨first, dependsFirst, leads.tail depends⟩

/-- While a constructor runs, what its arguments refer to is ready. -/
theorem beginConstruction (ready : Ready base container name)
    (depends : base.registry.DependsByArgument name next) :
    Ready base (container.beginConstruction name) next where
  constructing other marked := by
    rcases List.mem_cons.1 marked with same | earlier
    · subst same
      exact ⟨next, depends, .refl⟩
    · exact (ready.step (.inl depends)).constructing other earlier
  inCreation := (ready.step (.inl depends)).inCreation

/-- While a bean is in creation, what its fields refer to is ready. -/
theorem enter (ready : Ready base container name) (raw : Bean)
    (depends : base.registry.DependsOn name next) : Ready base (container.enter name raw) next where
  constructing := (ready.step depends).constructing
  inCreation other marked := by
    by_cases same : other = name
    · subst same
      exact ⟨next, depends, .refl⟩
    · refine (ready.step depends).inCreation other ?_
      intro absent
      exact marked ((Table.find?_insert_of_ne _ _ same).trans absent)

variable (resolvable : base.Resolvable) (ready : Ready base container name)
include resolvable ready

/-- No request is ready for a name whose constructor is running. -/
theorem idle : name ∉ container.constructing := by
  intro marked
  obtain ⟨next, byArgument, returns⟩ := ready.constructing name marked
  exact (resolvable.cycles name next (.inl byArgument) returns).2 byArgument

/-- A bean that is requested while it is in creation is a singleton on a cycle. -/
theorem onCycle (marked : container.inCreation.find? name ≠ none) :
    base.IsSingleton name ∧ base.OnCycle name := by
  obtain ⟨next, depends, returns⟩ := ready.inCreation name marked
  exact ⟨(resolvable.cycles name next depends returns).1, TransGen.head' depends returns⟩

end Ready

/-! ## Fulfilled requests -/

/-- Whatever is newly cached can be reached from one of the names. -/
def Introduces (base before after : Container) (origins : String → Prop) : Prop :=
  ∀ name bean, after.singletons.find? name = some bean → before.singletons.find? name = none →
    ∃ other, origins other ∧ base.registry.Reaches other name

/-- The requests were made between the two states, and all of them handed out a bean that may be
injected. -/
structure Fulfilled (base : Container) (asked : Asked) (start final : Container) : Prop where
  provided : Provided base.registry (Provides base final) asked
  covered : ∀ entry ∈ asked, Covered base final entry.1
  introduces : Introduces base start final (· ∈ asked.map (·.1))
  keeps : Keeps base start final
  consistent : Consistent base final
  counted : Counted base final

namespace Introduces

variable {base first second third : Container} {origins fewer more : String → Prop}

theorem of_singletons (same : second.singletons = first.singletons) :
    Introduces base first second origins := by
  intro name bean found absent
  rw [same, absent] at found
  cases found

theorem mono (introduces : Introduces base first second fewer)
    (leads : ∀ name, fewer name → ∃ other, more other ∧ base.registry.Reaches other name) :
    Introduces base first second more := by
  intro name bean found absent
  obtain ⟨other, isOne, reaches⟩ := introduces name bean found absent
  obtain ⟨origin, isOrigin, leads⟩ := leads other isOne
  exact ⟨origin, isOrigin, leads.trans reaches⟩

theorem trans (one : Introduces base first second origins)
    (two : Introduces base second third origins) : Introduces base first third origins := by
  intro name bean found absent
  cases between : second.singletons.find? name with
  | none => exact two name bean found between
  | some present => exact one name present between absent

end Introduces

/-- A request is fulfilled whenever the container is consistent and the name is ready. -/
def Fulfills (base : Container) (name : String) (start : Container)
    (result : Except BeanError Handout) (final : Container) : Prop :=
  Consistent base start → Counted base start → Ready base start name →
    (∃ definition, base.registry.find? name = some definition) →
      Fulfilled base [(name, result)] start final

namespace Fulfilled

variable {base start middle final : Container} {asked later : Asked}

theorem nil (consistent : Consistent base start) (counted : Counted base start) :
    Fulfilled base [] start start where
  provided := nofun
  covered := nofun
  introduces := .of_singletons rfl
  keeps := .refl base start
  consistent := consistent
  counted := counted

/-- One request that handed out a bean. -/
theorem single {name : String} {handout : Handout} (suits : handout.Suits base.registry name)
    (harmless : handout.bean.Harmless)
    (provides : base.IsSingleton name → final.Owns name handout.bean)
    (covered : Covered base final name) (introduces : Introduces base start final (· = name))
    (keeps : Keeps base start final) (consistent : Consistent base final)
    (counted : Counted base final) :
    Fulfilled base [(name, .ok handout)] start final where
  provided entry member := by
    rw [List.mem_singleton.1 member]
    exact ⟨handout, rfl, suits, suits.types, harmless, provides⟩
  covered entry member := by
    rw [List.mem_singleton.1 member]
    exact covered
  introduces := introduces.mono fun _ same => ⟨name, List.mem_singleton_self name, same ▸ .refl⟩
  keeps := keeps
  consistent := consistent
  counted := counted

/-- Requests for what a name depends on cache nothing but what the name leads to. -/
theorem introduces_for {name : String} (fulfilled : Fulfilled base asked start final)
    (depends : ∀ entry ∈ asked, base.registry.DependsOn name entry.1) :
    Introduces base start final (· = name) := by
  refine fulfilled.introduces.mono fun other member => ?_
  obtain ⟨entry, isEntry, rfl⟩ := List.mem_map.1 member
  exact ⟨name, rfl, .single (depends entry isEntry)⟩

theorem append (one : Fulfilled base asked start middle)
    (two : Fulfilled base later middle final) : Fulfilled base (asked ++ later) start final where
  provided entry member := by
    rcases List.mem_append.1 member with early | late
    · obtain ⟨handout, isOk, suits, provides⟩ := one.provided entry early
      exact ⟨handout, isOk, suits, two.keeps.provides _ _ provides⟩
    · exact two.provided entry late
  covered entry member := by
    rcases List.mem_append.1 member with early | late
    · exact (one.covered entry early).mono two.keeps
    · exact two.covered entry late
  introduces := by
    refine .trans (.mono one.introduces ?_) (.mono two.introduces ?_)
    · intro name member
      exact ⟨name, by simp [List.map_append, member], .refl⟩
    · intro name member
      exact ⟨name, by simp [List.map_append, member], .refl⟩
  keeps := one.keeps.trans two.keeps
  consistent := two.consistent
  counted := two.counted

end Fulfilled

/-- Requests one after the other are fulfilled if each of them is. -/
theorem Asks.fulfilled {base start final : Container} {asked : Asked}
    (asks : Asks request start asked final)
    (each : ∀ before middle, Asks request start before middle → ∀ name,
      Fulfills base name middle (request name middle).1 (request name middle).2)
    (consistent : Consistent base start) (counted : Counted base start)
    (ready : ∀ entry ∈ asked, Ready base start entry.1 ∧
      ∃ definition, base.registry.find? entry.1 = some definition) :
    Fulfilled base asked start final := by
  induction asks with
  | nil => exact .nil consistent counted
  | @cons start middle final name result asked answered rest ih =>
      obtain ⟨isReady, registered⟩ := ready _ List.mem_cons_self
      have first := each [] start .nil name consistent counted isReady registered
      have restores := request_restores name start
      rw [answered] at first restores
      refine first.append (ih ?_ first.consistent first.counted ?_)
      · exact fun before reached asks => each _ reached (.cons answered asks)
      · intro entry member
        obtain ⟨isReady, registered⟩ := ready entry (List.mem_cons_of_mem _ member)
        exact ⟨isReady.congr restores.constructing restores.inCreation, registered⟩

/-! ## Resolved points -/

/-- The supply holds a value for each of the points, made of beans that may be injected. -/
structure Resolved (base container : Container) (points : List InjectionPoint) (supply : Supply) :
    Prop where
  takes : ∀ point ∈ points, ∃ value, supply.find? point.index = some value ∧
    point.Takes base.registry base.properties (Provides base container) value
  covered : ∀ point ∈ points, ∀ next, point.LeadsTo base.registry next →
    Covered base container next

theorem Resolved.mono {base before after : Container} {points : List InjectionPoint}
    {supply : Supply} (resolved : Resolved base before points supply)
    (keeps : Keeps base before after) : Resolved base after points supply where
  takes point member := by
    obtain ⟨value, supplied, takes⟩ := resolved.takes point member
    exact ⟨value, supplied, takes.mono keeps.provides⟩
  covered point member next leads := (resolved.covered point member next leads).mono keeps

theorem Resolved.takes_of_find? {base container : Container} {points : List InjectionPoint}
    {supply : Supply} (resolved : Resolved base container points supply) {point : InjectionPoint}
    (isPoint : point ∈ points) {value : Value} (supplied : supply.find? point.index = some value) :
    point.Takes base.registry base.properties (Provides base container) value := by
  obtain ⟨other, isOther, takes⟩ := resolved.takes point isPoint
  rw [supplied] at isOther
  cases isOther
  exact takes

/-- Fields that are written with what was resolved leave a harmless heap harmless. -/
theorem Resolved.harmless {base container : Container} {points : List InjectionPoint}
    {supply : Supply} (resolved : Resolved base container points supply) {record : Record}
    {heap written : Heap} (harmless : heap.Harmless)
    (writes : Heap.Writes (.plain record) points supply heap written) :
    written.Harmless := by
  refine writes.harmless harmless ?_
  intro point isPoint value inner supplied isBean
  obtain ⟨_, provides⟩ := (resolved.takes_of_find? isPoint supplied).provides_of_bean? isBean
  exact provides.harmless

/-- A point that can be resolved leads to registered names only. -/
theorem registered_of_leadsTo {registry : Registry} {properties : PropertyStore}
    {point : InjectionPoint} (resolvable : point.IsResolvable registry properties) {name : String}
    (leads : point.LeadsTo registry name) :
    ∃ definition, registry.find? name = some definition := by
  obtain ⟨names, isNames, member⟩ := leads
  unfold InjectionPoint.IsResolvable at resolvable
  cases dependency : point.dependency with
  | property reference type =>
      rw [InjectionPoint.names, dependency] at isNames
      cases isNames
      cases member
  | bean reference target =>
      rw [dependency] at resolvable
      obtain ⟨others, isOthers, registered⟩ := resolvable
      rw [isOthers] at isNames
      cases isNames
      obtain ⟨definition, isRegistered, _⟩ := registered name member
      exact ⟨definition, isRegistered⟩

section Points

variable {base : Container} (resolvable : base.Resolvable)
include resolvable

theorem Resolvable.source {name : String} {definition : Definition}
    (registered : base.registry.find? name = some definition) :
    definition.casts.source = definition.type := by
  obtain ⟨declaration, declared, _⟩ := resolvable.declared name definition registered
  exact (Declaration.type_of_define declared).2

/-- Points of a registered definition are resolved in a consistent container if the names that
they lead to are ready. -/
theorem Asks.resolves {start middle : Container} {asked : Asked} {name : String}
    {definition : Definition} {points : List InjectionPoint} {result : Except BeanError Supply}
    (registered : base.registry.find? name = some definition)
    (own : ∀ point ∈ points, point ∈ definition.recipe.points ++ definition.fields)
    (ascending : points.Pairwise fun point other => point.index < other.index)
    (asks : Asks request start asked middle)
    {sees : Asked → Heap → Prop}
    (gathers : Gathers base.registry base.properties sees points .empty asked result)
    (each : ∀ before middle, Asks request start before middle → ∀ name,
      Fulfills base name middle (request name middle).1 (request name middle).2)
    (consistent : Consistent base start) (counted : Counted base start)
    (ready : ∀ point ∈ points, ∀ next, point.LeadsTo base.registry next →
      Ready base start next) :
    Fulfilled base asked start middle ∧
      ∃ supply, result = .ok supply ∧ Resolved base middle points supply := by
  have references : ∀ point ∈ points, point.IsResolvable base.registry base.properties :=
    fun point member => resolvable.references name definition registered point (own point member)
  have required : ∀ point ∈ points, point.dependency.isOptional = false :=
    fun point member => resolvable.required.of_mem registered (own point member)
  have fulfilled : Fulfilled base asked start middle := by
    refine asks.fulfilled each consistent counted fun entry member => ?_
    obtain ⟨point, isPoint, leads⟩ := gathers.leadsTo member
    exact ⟨ready point isPoint entry.1 leads,
      registered_of_leadsTo (references point isPoint) leads⟩
  obtain ⟨supply, isOk, takes⟩ := gathers.takes (fun _ _ => resolvable.source) references required
    ascending fulfilled.provided
  subst isOk
  refine ⟨fulfilled, supply, rfl, takes, ?_⟩
  intro point isPoint next leads
  obtain ⟨handout, member⟩ := gathers.handsOut required isPoint leads
  exact fulfilled.covered _ member

end Points

end Container
end BeanContainer
