import BeanContainer.Proofs.Action
import BeanContainer.Proofs.Request.Answers

/-!
# What resolving dependencies asks for

Resolving injection points changes a container only by requests, made one after the
other, and comes to what their answers make of it.
-/

namespace BeanContainer
namespace Container

open Running ContainerM

/-- In a container with these definitions and properties, the action changes nothing but by
requests, and what it comes to satisfies the condition on their answers and the heap that they
leave. -/
def Asking {α : Type} (request : Request) (registry : Registry) (properties : PropertyStore)
    (action : ContainerM α) (post : Asked → Heap → Except BeanError α → Prop) : Prop :=
  ∀ start : Container, start.registry = registry → start.properties = properties → ∃ asked,
    Asks request start asked (action start).2 ∧
      post asked (action start).2.heap (action start).1

namespace Asking

variable {α β : Type} {request : Request} {registry : Registry} {properties : PropertyStore}

/-- An action that makes no request. -/
theorem still {action : ContainerM α} {result : Except BeanError α}
    {post : Asked → Heap → Except BeanError α → Prop} (holds : ∀ view, post [] view result)
    (run : ∀ start : Container, start.registry = registry → start.properties = properties →
      action start = (result, start)) : Asking request registry properties action post := by
  intro start sameRegistry sameProperties
  rw [run start sameRegistry sameProperties]
  exact ⟨[], .nil, holds _⟩

theorem single (name : String) :
    Asking request registry properties (request name)
      fun asked _ result => asked = [(name, result)] := by
  intro start _ _
  exact ⟨[(name, (request name start).1)], .cons rfl .nil, rfl⟩

/-- An action that first looks at the definitions. -/
theorem get {next : Container → ContainerM α} {post : Asked → Heap → Except BeanError α → Prop}
    (rest : ∀ container, container.registry = registry →
      Asking request registry properties (next container) post) :
    Asking request registry properties (MonadState.get >>= next) post := by
  intro start sameRegistry sameProperties
  rw [bind_apply_ok (get_apply start)]
  exact rest start sameRegistry start sameRegistry sameProperties

/-- A failed request is a result like any other. -/
theorem attempt (name : String) :
    Asking request registry properties (attempt (request name))
      fun asked _ result => ∃ answer, asked = [(name, answer)] ∧ result = .ok answer := by
  intro start _ _
  exact ⟨[(name, (request name start).1)], .cons rfl .nil, _, rfl, rfl⟩

theorem mono {action : ContainerM α} {post post' : Asked → Heap → Except BeanError α → Prop}
    (results : ∀ asked view result, post asked view result → post' asked view result)
    (asking : Asking request registry properties action post) :
    Asking request registry properties action post' := by
  intro start sameRegistry sameProperties
  obtain ⟨asked, asks, holds⟩ := asking start sameRegistry sameProperties
  exact ⟨asked, asks, results asked _ _ holds⟩

theorem bind {action : ContainerM α} {next : α → ContainerM β}
    {middle : Asked → Heap → Except BeanError α → Prop}
    {post : Asked → Heap → Except BeanError β → Prop} (keeps : KeepsConfiguration request)
    (first : Asking request registry properties action middle)
    (rest : ∀ asked view value, middle asked view (.ok value) →
      Asking request registry properties (next value) fun later => post (asked ++ later))
    (fails : ∀ asked view error, middle asked view (.error error) →
      post asked view (.error error)) :
    Asking request registry properties (action >>= next) post := by
  intro start sameRegistry sameProperties
  obtain ⟨asked, asks, holds⟩ := first start sameRegistry sameProperties
  rw [bind_apply]
  generalize action start = outcome at asks holds ⊢
  obtain ⟨result, halfway⟩ := outcome
  cases result with
  | error error => exact ⟨asked, asks, fails asked _ error holds⟩
  | ok value =>
      obtain ⟨registryLater, propertiesLater⟩ := asks.configuration keeps
      obtain ⟨later, asksLater, holdsLater⟩ := rest asked _ value holds halfway
        (registryLater.trans sameRegistry) (propertiesLater.trans sameProperties)
      exact ⟨asked ++ later, asks.append asksLater, holdsLater⟩

end Asking

section Resolving

variable {request : Request} {registry : Registry} {properties : PropertyStore}

/-- A cast gives the bean itself, or fails if the bean does not fit. -/
theorem castTo_apply (target : BeanTarget) (name : String) (handout : Handout)
    (start : Container) :
    castTo target name handout start =
      (if handout.Fits target.element then .ok (.ofBean target.element handout.bean)
        else .error (.cast name target.element.text), start) := by
  unfold castTo Casts.cast?
  by_cases fits : handout.Fits target.element
  · have condition : handout.casts.supports target.element = true ∧
        handout.bean.type = handout.casts.source := fits
    rw [if_pos fits, if_pos condition]
    rfl
  · have condition : ¬ (handout.casts.supports target.element = true ∧
        handout.bean.type = handout.casts.source) := fits
    rw [if_neg fits, if_neg condition]
    rfl

theorem castTo_asking (target : BeanTarget) (name : String) (handout : Handout) :
    Asking request registry properties (castTo target name handout)
      fun asked _ result => asked = [] ∧ result =
        if handout.Fits target.element then .ok (.ofBean target.element handout.bean)
        else .error (.cast name target.element.text) := by
  intro start _ _
  rw [castTo_apply]
  exact ⟨[], .nil, rfl, rfl⟩

theorem collect_apply {target : BeanTarget} {name : String} {values : List Value} {value : Value}
    (collected : target.collect? values = some value) (start : Container) :
    collect target name values start = (.ok value, start) := by
  unfold collect
  rw [collected]
  rfl

variable (keeps : KeepsConfiguration request)
include keeps

/-- What is injected for names, given what requesting them came to and how the beans look by
then. -/
def Injected (target : BeanTarget) (names : List String) (asked : Asked) (view : Heap)
    (result : Except BeanError (Option Value)) : Prop :=
  ∃ answer, Serves target names asked answer ∧
    result = answer.map fun handouts => target.inject view (handouts.map (·.bean))

omit keeps in
theorem Injected.outcome {point : InjectionPoint} {reference : BeanReference}
    {target : BeanTarget} {names : List String} {asked : Asked} {view : Heap}
    {result : Except BeanError (Option Value)}
    (injected : Injected target names asked view result) (dependency : point.dependency = .bean reference target)
    (isNames : point.names registry = .ok names) :
    Outcome registry properties view point asked result := by
  obtain ⟨answer, serves, rfl⟩ := injected
  cases answer with
  | error error => exact .unserved dependency isNames serves
  | ok handouts => exact .served dependency isNames serves rfl

omit keeps in
/-- A single bean is cast and injected, unless it cannot be handed out as the element type. -/
theorem castAndCollect_asking (target : BeanTarget) (name : String) (handout : Handout) :
    Asking request registry properties
      (castTo target name handout >>= fun value => some <$> collect target name [value])
      fun asked view result => Injected target [name] ((name, .ok handout) :: asked) view
        result := by
  intro start _ _
  rw [bind_apply, castTo_apply]
  by_cases fits : handout.Fits target.element
  · obtain ⟨value, injected⟩ : ∃ value, target.inject start.heap [handout.bean] = some value := by
      unfold BeanTarget.inject
      split
      · exact ⟨_, rfl⟩
      · exact ⟨_, rfl⟩
    have collected := (target.collect?_ofBean handout.bean).trans injected
    simp only [fits, if_true, map_apply, collect_apply collected]
    refine ⟨[], .nil, .ok [handout], .cons fits .nil, ?_⟩
    simp [Except.map, injected]
  · simp only [fits, if_false]
    exact ⟨[], .nil, _, .unfit fits, rfl⟩

theorem resolveBean_asking (target : BeanTarget) (name : String) :
    Asking request registry properties (some <$> resolveBean request target name)
      (Injected target [name]) := by
  unfold resolveBean
  rw [map_bind]
  simp only [map_bind]
  refine .bind keeps (.single name) ?_ ?_
  · intro asked _ handout equal
    subst equal
    exact castAndCollect_asking target name handout
  · intro asked _ error equal
    subst equal
    exact ⟨_, .failed, rfl⟩

theorem resolveNamed_asking {point : InjectionPoint} {reference : BeanReference}
    {target : BeanTarget} (dependency : point.dependency = .bean reference target)
    (named : reference.isWildcard = false) :
    Asking request registry properties (resolveNamed request reference target)
      fun asked view result => Outcome registry properties view point asked result := by
  have isNames : point.names registry = .ok [reference.name] := by
    simp [InjectionPoint.names, dependency, named]
  unfold resolveNamed
  refine .bind keeps (.attempt reference.name) ?_ ?_
  · rintro asked _ result ⟨answer, equal, isAnswer⟩
    cases isAnswer
    subst equal
    cases result with
    | error error =>
        simp only []
        split
        next tolerated =>
          simp only [Bool.and_eq_true] at tolerated
          exact .still (fun _ => .missing dependency named tolerated.1 tolerated.2) fun _ _ _ => rfl
        next => exact .still (fun _ => .unserved dependency isNames .failed) fun _ _ _ => rfl
    | ok handout =>
        refine .mono ?_ (castAndCollect_asking target reference.name handout)
        intro asked view result injected
        exact injected.outcome dependency isNames
  · rintro asked _ error ⟨answer, equal, isAnswer⟩
    cases isAnswer

theorem resolveEach_asking (target : BeanTarget) (names : List String) :
    Asking request registry properties (resolveEach request target names)
      fun asked _ result => ∃ answer, Serves target names asked answer ∧
        result = answer.map fun handouts => handouts.map fun handout =>
          (handout.bean, Value.ofBean target.element handout.bean) := by
  induction names with
  | nil => exact .still (fun _ => ⟨.ok [], .nil, rfl⟩) fun _ _ _ => rfl
  | cons name names ih =>
      unfold resolveEach
      refine .bind keeps (.single name) ?_ ?_
      · intro asked _ handout equal
        subst equal
        refine .bind keeps (castTo_asking target name handout) ?_ ?_
        · intro nothing _ value ⟨isNothing, isValue⟩
          subst isNothing
          split at isValue
          next fits =>
            cases isValue
            refine .bind keeps ih ?_ ?_
            · intro later _ rest ⟨answer, serves, isRest⟩
              cases answer with
              | error error => cases isRest
              | ok handouts =>
                  cases isRest
                  refine .still (fun _ => ⟨.ok (handout :: handouts), ?_, rfl⟩) fun _ _ _ => rfl
                  simpa using .cons fits serves
            · intro later _ error ⟨answer, serves, isRest⟩
              cases answer with
              | error error => exact ⟨_, .later fits serves, isRest⟩
              | ok handouts => cases isRest
          next => cases isValue
        · intro nothing _ error ⟨isNothing, isError⟩
          subst isNothing
          split at isError
          next => cases isError
          next unfit =>
            cases isError
            exact ⟨_, .unfit unfit, rfl⟩
      · intro asked _ error equal
        subst equal
        exact ⟨_, .failed, rfl⟩

/-- Beans for all the names are injected as a list, by the priorities that they have once all of
them are there. -/
theorem sortAndCollect_asking {target : BeanTarget} (multiple : target.isMultiple = true)
    (name : String) (names : List String) :
    Asking request registry properties
      (resolveEach request target names >>= fun entries => MonadState.get >>= fun container =>
        some <$> collect target name ((container.heap.sortByPriority entries).map (·.2)))
      (Injected target names) := by
  refine .bind keeps (resolveEach_asking keeps target names) ?_ ?_
  · rintro asked _ entries ⟨answer, serves, isEntries⟩
    cases answer with
    | error error => cases isEntries
    | ok handouts =>
        cases isEntries
        intro start _ _
        obtain ⟨value, injected⟩ :
            ∃ value, target.inject start.heap (handouts.map (·.bean)) = some value :=
          ⟨_, if_pos multiple⟩
        have collected : target.collect? ((start.heap.sortByPriority (handouts.map fun handout =>
            (handout.bean, Value.ofBean target.element handout.bean))).map (·.2)) =
              some value := by
          rw [← injected, ← target.collect?_sortByPriority multiple, List.map_map]
          rfl
        rw [bind_apply_ok (get_apply start)]
        simp only [map_apply, collect_apply collected, Except.map]
        exact ⟨[], .nil, .ok handouts, by simpa using serves, by simp [Except.map, injected]⟩
  · rintro asked _ error ⟨answer, serves, isError⟩
    cases answer with
    | error error =>
        cases isError
        exact ⟨_, serves, rfl⟩
    | ok handouts => cases isError

theorem resolveTyped_asking {point : InjectionPoint} {reference : BeanReference}
    {target : BeanTarget} (dependency : point.dependency = .bean reference target)
    (wildcard : reference.isWildcard = true) :
    Asking request registry properties (resolveTyped request point reference target)
      fun asked view result => Outcome registry properties view point asked result := by
  unfold resolveTyped
  refine .get fun container sameRegistry => ?_
  simp only [sameRegistry]
  by_cases multiple : target.isMultiple = true
  · have isNames : point.names registry =
        .ok (registry.candidates target.element).all := by
      simp [InjectionPoint.names, dependency, wildcard, multiple]
    simp only [if_pos multiple]
    refine .mono ?_ (sortAndCollect_asking keeps multiple point.name _)
    intro asked view result injected
    exact injected.outcome dependency isNames
  · simp only [if_neg multiple]
    have isNames : point.names registry = ((registry.candidates target.element).select point.name
        point.type.name reference.isOptional).map Option.toList := by
      simp [InjectionPoint.names, dependency, wildcard, multiple]
    cases selected : (registry.candidates target.element).select point.name point.type.name
        reference.isOptional with
    | error error =>
        rw [selected] at isNames
        exact .still (fun _ => .undecided dependency isNames) fun _ _ _ => rfl
    | ok found =>
        rw [selected] at isNames
        cases found with
        | none =>
            have injects : ∀ view, target.inject view [] = none := fun _ => if_neg multiple
            have nothing : Serves target [] [] (.ok []) := .nil
            exact .still (fun view => .served dependency isNames nothing (injects view))
              fun _ _ _ => rfl
        | some name =>
            refine .mono ?_ (resolveBean_asking keeps target name)
            intro asked view result injected
            exact injected.outcome dependency isNames

/-- Resolving a point asks for the names it leads to and makes of the answers what is
described by `Outcome`. -/
theorem resolvePoint_asking (point : InjectionPoint) :
    Asking request registry properties (resolvePoint request point)
      fun asked view result => Outcome registry properties view point asked result := by
  unfold resolvePoint
  split
  next reference type dependency =>
    cases found : properties.readAs type reference.name reference.default with
    | ok content =>
        refine .still (fun _ => .read dependency found) ?_
        intro start _ sameProperties
        simp [resolveProperty, map_apply, bind_apply, sameProperties, found, Except.map]
    | error error =>
        refine .still (fun _ => .unread dependency found) ?_
        intro start _ sameProperties
        simp [resolveProperty, map_apply, bind_apply, sameProperties, found, Except.map]
  next reference target dependency =>
    split
    next wildcard => exact resolveTyped_asking keeps dependency wildcard
    next named => exact resolveNamed_asking keeps dependency (by simpa using named)

/-- Resolving points one after the other makes requests for the names they lead to, and gives each
point what its own requests came to. -/
theorem resolveFrom_asking (points : List InjectionPoint) (supply : Supply) (start : Container) :
    ∃ asked, Asks request start asked (resolveFrom request points supply start).2 ∧
      Gathers start.registry start.properties (Sees request start) points supply asked
        (resolveFrom request points supply start).1 := by
  induction points generalizing supply start with
  | nil => exact ⟨[], .nil, .all [] .nil .nil⟩
  | cons point points ih =>
      have isRest : resolveFrom request (point :: points) supply =
          resolvePoint request point >>= fun found =>
            resolveFrom request points (supply.offer point found) := by
        refine congrArg (resolvePoint request point >>= ·) (funext fun found => ?_)
        cases found <;> rfl
      obtain ⟨asked, asks, first⟩ := resolvePoint_asking keeps point start rfl rfl
      rw [isRest, bind_apply]
      generalize resolvePoint request point start = outcome at asks first ⊢
      obtain ⟨result, middle⟩ := outcome
      cases result with
      | error error =>
          have isFirst : point :: points = [] ++ point :: points := rfl
          exact ⟨asked, asks, .stopped [] isFirst .nil first⟩
      | ok found =>
          obtain ⟨registry, properties⟩ := asks.configuration keeps
          obtain ⟨later, asksLater, rest⟩ := ih (supply.offer point found) middle
          rw [registry, properties] at rest
          refine ⟨asked ++ later, asks.append asksLater, .cons ⟨middle, asks, rfl⟩ first ?_⟩
          exact rest.mono fun more view ⟨final, asksMore, isView⟩ =>
            ⟨final, asks.append asksMore, isView⟩

/-- Resolving points makes requests for the names they lead to, and gives each of them
what its own requests came to. -/
theorem resolveAll_asking (points : List InjectionPoint) (start : Container) :
    ∃ asked, Asks request start asked (resolveAll request points start).2 ∧
      Gathers start.registry start.properties (Sees request start) points .empty asked
        (resolveAll request points start).1 :=
  resolveFrom_asking keeps points .empty start

end Resolving
end Container
end BeanContainer
