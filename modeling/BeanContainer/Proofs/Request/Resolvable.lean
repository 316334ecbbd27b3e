import BeanContainer.Proofs.Heap.Finishing
import BeanContainer.Proofs.Request.Bookkeeping
import BeanContainer.Proofs.Request.Fields
import BeanContainer.Proofs.Wiring

/-!
# When everything can be resolved

A configuration is resolvable if no reference is optional and each one can be resolved, no
constructor or callback fails, no processor intervenes, and no cycle of dependencies contains a
prototype or an argument of a constructor.  Points are then resolved whenever the requests that
they make succeed.
-/

namespace BeanContainer

/-- The property can be read, or the names of the beans are settled and their beans can be handed
out as the element type. -/
def InjectionPoint.IsResolvable (point : InjectionPoint) (registry : Registry)
    (properties : PropertyStore) : Prop :=
  match point.dependency with
  | .property reference type =>
      ∃ content, properties.readAs type reference.name reference.default = .ok content
  | .bean _ target =>
      ∃ names, point.names registry = .ok names ∧ ∀ name ∈ names, ∃ definition,
        registry.find? name = some definition ∧ definition.isAssignableTo target.element = true

/-- Whether a property can be read, and whether names are settled and registered, is decided by
looking. -/
instance (point : InjectionPoint) (registry : Registry) (properties : PropertyStore) :
    Decidable (point.IsResolvable registry properties) :=
  match isDependency : point.dependency with
  | .property reference type =>
      match isRead : properties.readAs type reference.name reference.default with
      | .ok content => isTrue (by
          rw [InjectionPoint.IsResolvable, isDependency]
          exact ⟨content, isRead⟩)
      | .error error => isFalse (by
          rw [InjectionPoint.IsResolvable, isDependency]
          rintro ⟨content, isOk⟩
          cases isRead.symm.trans isOk)
  | .bean _ target =>
      match isNames : point.names registry with
      | .ok names => decidable_of_iff (∀ name ∈ names, ∃ definition,
          registry.find? name = some definition ∧
            definition.isAssignableTo target.element = true) (by
          rw [InjectionPoint.IsResolvable, isDependency]
          constructor
          · exact fun each => ⟨names, isNames, each⟩
          · rintro ⟨others, isOthers, each⟩
            cases isNames.symm.trans isOthers
            exact each)
      | .error error => isFalse (by
          rw [InjectionPoint.IsResolvable, isDependency]
          rintro ⟨names, isOk, _⟩
          cases isNames.symm.trans isOk)

/-- A single reference that must not be empty leads to one name. -/
theorem InjectionPoint.names_of_required {point : InjectionPoint} {registry : Registry}
    {reference : BeanReference} {target : BeanTarget} {names : List String}
    (dependency : point.dependency = .bean reference target)
    (required : reference.isOptional = false) (single : target.isMultiple = false)
    (isNames : point.names registry = .ok names) : ∃ name, names = [name] := by
  unfold InjectionPoint.names at isNames
  rw [dependency] at isNames
  simp only [single, required] at isNames
  split at isNames
  next =>
    cases selected : (registry.candidates target.element).select point.name point.type.name
        false with
    | error error =>
        rw [selected] at isNames
        cases isNames
    | ok found =>
        rw [selected] at isNames
        cases isNames
        cases found with
        | none => exact absurd (Candidates.all_of_select selected).1 nofun
        | some name => exact ⟨name, rfl⟩
  next =>
    cases isNames
    exact ⟨_, rfl⟩

/-- The bean is of the type that is registered under the name. -/
def Registry.Types (registry : Registry) (name : String) (bean : Bean) : Prop :=
  ∃ definition, registry.find? name = some definition ∧ bean.type = definition.type

/-- The bean is of the type that is registered under the name, and can be handed out as the
types of its definition. -/
def Handout.Suits (handout : Handout) (registry : Registry) (name : String) : Prop :=
  ∃ definition, registry.find? name = some definition ∧ handout.casts = definition.casts ∧
    handout.bean.type = definition.type

theorem Handout.Suits.types {handout : Handout} {registry : Registry} {name : String}
    (suits : handout.Suits registry name) : registry.Types name handout.bean := by
  obtain ⟨definition, registered, _, type⟩ := suits
  exact ⟨definition, registered, type⟩

namespace Container

/-- Beans of some registered type stand in for others. -/
def HasOriginals (container : Container) : Prop :=
  ∃ name definition, container.registry.find? name = some definition ∧
    (container.heap.behaviour definition.type).original.isSome

/-- Everything can be resolved. -/
structure Resolvable (container : Container) : Prop where
  /-- The fields of each bean lie in cells of their own, which its constructor leaves unset. -/
  declared : ∀ name definition, container.registry.find? name = some definition →
    ∃ declaration : Declaration, declaration.define = .ok definition ∧
      (declaration.fields.map (·.cell)).Nodup ∧
      ∀ field ∈ declaration.fields, ∀ arguments,
        ¬ definition.recipe.Presets arguments field.cell
  required : container.registry.IsRequired
  references : ∀ name definition, container.registry.find? name = some definition →
    ∀ point ∈ definition.recipe.points ++ definition.fields,
      point.IsResolvable container.registry container.properties
  /-- A constructor takes the properties and the beans that its arguments refer to. -/
  constructors : ∀ name definition method inputs,
    container.registry.find? name = some definition →
      definition.recipe = .calling method inputs → ∀ supply : Supply,
        (∀ point ∈ definition.recipe.points, ∃ value, supply.find? point.index = some value ∧
          point.Takes container.registry container.properties container.registry.Types value) →
        ∃ results, Recipe.run method inputs supply = .ok results
  callbacks : ∀ name definition, container.registry.find? name = some definition → ∀ cause,
    (container.heap.behaviour definition.type).onWired ≠ some (.error cause)
  /-- If beans of a registered type stand in for others, no callback of a bean fails that lies in
  a cell already. -/
  originals : container.HasOriginals → container.heap.Harmless
  /-- Nor does one of a bean that a constructor puts into a cell. -/
  presets : container.HasOriginals → ∀ name definition,
    container.registry.find? name = some definition → ∀ supply arguments cells,
      definition.recipe.Yields supply arguments cells →
      (∀ point ∈ definition.recipe.points, ∃ value, supply.find? point.index = some value ∧
        point.Takes container.registry container.properties
          (fun other bean => container.registry.Types other bean ∧ bean.Harmless) value) →
        ∀ cell value inner, (Table.ofList cells).find? cell = some value →
          value.bean? = some inner → inner.Harmless
  /-- There are no processors but the built-in one. -/
  unprocessed : container.processors.links.filterMap Link.processor? = []
  cycles : ∀ name next, container.registry.DependsOn name next →
    container.registry.Reaches next name →
      container.IsSingleton name ∧ ¬ container.registry.DependsByArgument name next

/-- All requests have handed out suitable beans that are provided under their names. -/
def Provided (registry : Registry) (provides : String → Bean → Prop) (asked : Asked) : Prop :=
  ∀ entry ∈ asked, ∃ handout, entry.2 = .ok handout ∧ handout.Suits registry entry.1 ∧
    provides entry.1 handout.bean

/-- A new bean of a registered type is harmless. -/
theorem Resolvable.harmless_create {base : Container} (resolvable : base.Resolvable)
    {name : String} {definition : Definition}
    (registered : base.registry.find? name = some definition) {heap : Heap}
    (same : heap.behaviour definition.type = base.heap.behaviour definition.type)
    (arguments : List Value) (cells : List (String × Value)) :
    (heap.create definition.type arguments cells).1.Harmless := by
  have succeeds := resolvable.callbacks name definition registered
  rw [← same] at succeeds
  intro link isLink
  rw [List.mem_singleton.1 isLink]
  exact succeeds

section Resolvable

variable {registry : Registry} {properties : PropertyStore} {view : Heap}
  {provides : String → Bean → Prop}

/-- Names are served if all requests hand out beans that fit. -/
theorem Serves.succeeds {target : BeanTarget} {names : List String} {asked : Asked}
    {answer : Except BeanError (List Handout)} (serves : Serves target names asked answer)
    (fit : ∀ entry ∈ asked, ∃ handout, entry.2 = .ok handout ∧ handout.Fits target.element) :
    ∃ handouts, answer = .ok handouts := by
  induction serves with
  | nil => exact ⟨[], rfl⟩
  | @cons _ _ handout handouts => exact ⟨handout :: handouts, rfl⟩
  | failed =>
      obtain ⟨handout, isOk, _⟩ := fit _ (List.mem_singleton_self _)
      cases isOk
  | unfit unfit =>
      obtain ⟨handout, isOk, fits⟩ := fit _ (List.mem_singleton_self _)
      cases isOk
      exact absurd fits unfit
  | later _ _ ih =>
      obtain ⟨handouts, isOk⟩ := ih fun entry member => fit entry (List.mem_cons_of_mem _ member)
      cases isOk

/-- Names that are served take the beans that were handed out for them. -/
theorem Serves.takes {point : InjectionPoint} {reference : BeanReference} {target : BeanTarget}
    {names : List String} {asked : Asked} {handouts : List Handout}
    (dependency : point.dependency = .bean reference target)
    (required : reference.isOptional = false) (isNames : point.names registry = .ok names)
    (serves : Serves target names asked (.ok handouts))
    (provided : Provided registry provides asked) :
    ∃ value, target.inject view (handouts.map (·.bean)) = some value ∧
      point.Takes registry properties provides value := by
  have beans : List.Forall₂ provides names (handouts.map (·.bean)) := by
    refine List.forall₂_map_right_iff.2 (serves.handedOut.imp ?_)
    intro name handout ⟨answered, _⟩
    obtain ⟨_, isOk, _, isProvided⟩ := provided _ answered
    cases isOk
    exact isProvided
  obtain ⟨value, injects⟩ : ∃ value, target.inject view (handouts.map (·.bean)) = some value := by
    unfold BeanTarget.inject
    cases multiple : target.isMultiple with
    | true => exact ⟨_, rfl⟩
    | false =>
        obtain ⟨name, rfl⟩ := InjectionPoint.names_of_required dependency required multiple isNames
        obtain ⟨handout, rfl, _⟩ := serves.single
        exact ⟨_, rfl⟩
  refine ⟨value, injects, ?_⟩
  unfold InjectionPoint.Takes
  rw [dependency]
  exact ⟨names, _, view, isNames, beans, injects⟩

variable (sources : ∀ name definition, registry.find? name = some definition →
  definition.casts.source = definition.type)
include sources

/-- A resolvable point takes a value of its type if all its requests hand out suitable beans. -/
theorem Outcome.takes {point : InjectionPoint} {asked : Asked}
    {result : Except BeanError (Option Value)}
    (resolvable : point.IsResolvable registry properties)
    (required : point.dependency.isOptional = false)
    (provided : Provided registry provides asked)
    (outcome : Outcome registry properties view point asked result) :
    ∃ value, result = .ok (some value) ∧ point.Takes registry properties provides value := by
  unfold InjectionPoint.IsResolvable at resolvable
  cases outcome with
  | @read _ type content dependency isRead =>
      refine ⟨⟨type.valueType, content⟩, rfl, ?_⟩
      unfold InjectionPoint.Takes
      rw [dependency]
      exact ⟨content, isRead, rfl⟩
  | unread dependency failed =>
      rw [dependency] at resolvable
      obtain ⟨content, isRead⟩ := resolvable
      rw [failed] at isRead
      cases isRead
  | undecided dependency failed =>
      rw [dependency] at resolvable
      obtain ⟨names, isNames, _⟩ := resolvable
      rw [failed] at isNames
      cases isNames
  | served dependency isNames serves injects =>
      rw [dependency] at required
      obtain ⟨value, isValue, takes⟩ := serves.takes dependency required isNames provided
      exact ⟨value, by rw [← injects, isValue], takes⟩
  | unserved dependency isNames serves =>
      rw [dependency] at resolvable
      obtain ⟨names, sameNames, assignable⟩ := resolvable
      rw [isNames] at sameNames
      cases sameNames
      obtain ⟨handouts, isOk⟩ := serves.succeeds fun entry member => by
        obtain ⟨handout, isOk, ⟨definition, registered, casts, type⟩, _⟩ := provided entry member
        obtain ⟨other, registeredAgain, isAssignable⟩ := assignable _ (serves.mem_names member)
        rw [registered] at registeredAgain
        cases registeredAgain
        refine ⟨handout, isOk, ?_, ?_⟩
        · rw [casts]
          exact isAssignable
        · rw [casts, type, sources _ _ registered]
      cases isOk
  | missing dependency _ optional =>
      rw [dependency] at required
      exact absurd (optional.symm.trans required) nofun

/-- Resolvable points take values of their types if all requests hand out suitable beans. -/
theorem Gathers.takes {points : List InjectionPoint} {asked : Asked}
    {sees : Asked → Heap → Prop} {result : Except BeanError Supply}
    (resolvable : ∀ point ∈ points, point.IsResolvable registry properties)
    (required : ∀ point ∈ points, point.dependency.isOptional = false)
    (ascending : points.Pairwise fun point other => point.index < other.index)
    (provided : Provided registry provides asked)
    (gathers : Gathers registry properties sees points .empty asked result) :
    ∃ supply : Supply, result = .ok supply ∧ ∀ point ∈ points, ∃ value,
      supply.find? point.index = some value ∧ point.Takes registry properties provides value := by
  cases gathers with
  | all findings resolves =>
      refine ⟨_, rfl, ?_⟩
      intro point isPoint
      have paired : List.Forall₂ (fun point finding => (point, finding) ∈ points.zip findings)
          points findings := List.forall₂_iff_zip.2 ⟨resolves.length_eq, id⟩
      obtain ⟨finding, isFinding, isPair⟩ := exists_of_forall₂_left paired isPoint
      have outcome := (List.forall₂_iff_zip.1 resolves).2 isPair
      have providedFor : Provided registry provides finding.asked := fun entry member =>
        provided entry (List.mem_flatMap.2 ⟨finding, isFinding, member⟩)
      obtain ⟨value, isValue, takes⟩ :=
        outcome.takes sources (resolvable point isPoint) (required point isPoint) providedFor
      have supplied := find?_supplyOf ascending (fun _ _ => Table.find?_empty _) isPair
      exact ⟨value, supplied.trans (Except.ok.inj isValue), takes⟩
  | @stopped earlier later point asked view error findings isPoint resolves fails =>
      have member : point ∈ points := by simp [isPoint]
      have providedFor : Provided registry provides asked := fun entry inAsked =>
        provided entry (List.mem_append_right _ inAsked)
      obtain ⟨value, isValue, _⟩ :=
        fails.takes sources (resolvable point member) (required point member) providedFor
      cases isValue

end Resolvable

end Container
end BeanContainer
