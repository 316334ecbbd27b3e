import BeanContainer.Proofs.Request.Bookkeeping

/-!
# Requests inside a request

Answering a request only makes requests in states that follow the bookkeeping: the name
is marked as constructing or its bean is in creation, and only complete requests came
between.  How requests are answered in other states does not matter, so two ways to
answer them which agree on these states lead to the same outcome.
-/

namespace BeanContainer
namespace Container

open Running ContainerM

/-! ## Resolving in the same way -/

section Agreement

variable {within : Container → Prop} {first second : Request}

theorem castTo_still (target : BeanTarget) (name : String) (handout : Handout)
    (state : Container) : (castTo target name handout state).2 = state := by
  unfold castTo
  cases handout.casts.cast? handout.bean target.element with
  | none => rfl
  | some value => rfl

theorem collect_still (target : BeanTarget) (name : String) (values : List Value)
    (state : Container) : (collect target name values state).2 = state := by
  unfold collect
  cases target.collect? values with
  | none => rfl
  | some value => rfl

theorem resolveProperty_still (reference : PropertyReference) (type : PropertyType)
    (state : Container) : (resolveProperty reference type state).2 = state := by
  unfold resolveProperty
  rw [bind_apply_ok (get_apply state)]
  cases state.properties.readAs type reference.name reference.default with
  | error error => rfl
  | ok content => rfl

variable (agree : ∀ name, Agree within (first name) (second name))
include agree

theorem attempt_agree (name : String) :
    Agree within (attempt (first name)) (attempt (second name)) := by
  intro state inside
  obtain ⟨same, stays⟩ := agree name state inside
  unfold attempt
  rw [same]
  exact ⟨rfl, stays⟩

theorem resolveBean_agree (target : BeanTarget) (name : String) :
    Agree within (resolveBean first target name) (resolveBean second target name) := by
  refine .bind (agree name) fun handout => ?_
  exact .bind (.still (castTo_still target name handout)) fun value =>
    .still (collect_still target name [value])

theorem resolveNamed_agree (reference : BeanReference) (target : BeanTarget) :
    Agree within (resolveNamed first reference target) (resolveNamed second reference target) := by
  refine .bind (attempt_agree agree reference.name) fun result => ?_
  cases result with
  | ok handout =>
      refine .bind (.still (castTo_still target reference.name handout)) fun value => ?_
      exact .map _ (.still (collect_still target reference.name [value]))
  | error error =>
      simp only []
      split
      · exact .still fun _ => rfl
      · exact .still fun _ => rfl

theorem resolveEach_agree (target : BeanTarget) (names : List String) :
    Agree within (resolveEach first target names) (resolveEach second target names) := by
  induction names with
  | nil => exact .still fun _ => rfl
  | cons name names ih =>
      refine .bind (agree name) fun handout => ?_
      refine .bind (.still (castTo_still target name handout)) fun value => ?_
      exact .bind ih fun rest => .still fun _ => rfl

theorem resolveTyped_agree (point : InjectionPoint) (reference : BeanReference)
    (target : BeanTarget) :
    Agree within (resolveTyped first point reference target)
      (resolveTyped second point reference target) := by
  refine .bind (.still fun _ => rfl) fun container => ?_
  simp only []
  split
  · refine .bind (resolveEach_agree agree target _) fun beans => ?_
    refine .bind (.still fun _ => rfl) fun sorting => ?_
    exact .map _ (.still (collect_still target point.name _))
  · refine .bind (.still (congrArg Prod.snd <| liftM_apply _ ·)) fun selected => ?_
    cases selected with
    | none => exact .still fun _ => rfl
    | some name => exact .map _ (resolveBean_agree agree target name)

theorem resolvePoint_agree (point : InjectionPoint) :
    Agree within (resolvePoint first point) (resolvePoint second point) := by
  unfold resolvePoint
  split
  · exact .map _ (.still (resolveProperty_still _ _))
  · split
    · exact resolveTyped_agree agree point _ _
    · exact resolveNamed_agree agree _ _

theorem resolveFrom_agree (points : List InjectionPoint) (supply : Supply) :
    Agree within (resolveFrom first points supply) (resolveFrom second points supply) := by
  induction points generalizing supply with
  | nil => exact .still fun _ => rfl
  | cons point points ih =>
      refine .bind (resolvePoint_agree agree point) fun found => ?_
      cases found with
      | none => exact ih supply
      | some value => exact ih (supply.insert point.index value)

end Agreement

/-- Resolving does not depend on answers in states that are not reached by requests. -/
theorem resolveAll_congr {first second : Request} {start : Container}
    (same : ∀ asked middle name, Asks first start asked middle →
      second name middle = first name middle) (points : List InjectionPoint) :
    resolveAll second points start = resolveAll first points start := by
  have agree : ∀ name, Agree (fun middle => ∃ asked, Asks first start asked middle)
      (first name) (second name) := by
    intro name middle reached
    obtain ⟨asked, asks⟩ := reached
    exact ⟨same asked middle name asks, _, asks.append (.cons rfl .nil)⟩
  exact (resolveFrom_agree agree points .empty start ⟨[], .nil⟩).1

/-! ## Answering in the same way -/

/-- The states in which the request for the name makes further requests. -/
inductive Nested (request : Request) (name : String) (start : Container) : Container → Prop
  /-- The constructor of the name is running. -/
  | constructing {definition : Definition} {asked : Asked} {middle : Container}
      (registered : start.registry.find? name = some definition)
      (idle : name ∉ start.constructing)
      (asks : Asks request (start.beginConstruction name) asked middle) :
      Nested request name start middle
  /-- The bean of the name is in creation. -/
  | creating {definition : Definition} {raw : Bean} {built middle : Container} {asked : Asked}
      (registered : start.registry.find? name = some definition)
      (construction : Construction request definition name start raw built)
      (fresh : built.inCreation.find? name = none)
      (asks : Asks request ((built.noted (.entered name raw)).enter name raw) asked middle) :
      Nested request name start middle

section Congruence

variable {first second : Request} {name : String} {start : Container}
  (same : ∀ middle other, Nested first name start middle →
    second other middle = first other middle)
include same

theorem constructGuarded_congr {definition : Definition}
    (registered : start.registry.find? name = some definition)
    (idle : name ∉ start.constructing) :
    constructGuarded second definition name start =
      constructGuarded first definition name start := by
  have resolved : ∀ points, resolveAll second points (start.beginConstruction name) =
      resolveAll first points (start.beginConstruction name) :=
    resolveAll_congr fun asked middle other asks =>
      same middle other (.constructing registered idle asks)
  have constructed : construct (resolveAll second) definition name (start.beginConstruction name) =
      construct (resolveAll first) definition name (start.beginConstruction name) := by
    unfold construct
    cases definition.recipe with
    | blank => rfl
    | calling method inputs => simp only [bind_apply, resolved]
  simp only [constructGuarded, between_apply, constructed]

theorem settle_congr {definition : Definition} {raw : Bean} {built : Container}
    (registered : start.registry.find? name = some definition)
    (construction : Construction first definition name start raw built) :
    settle second definition name raw built = settle first definition name raw built := by
  unfold settle
  rw [bind_apply_ok (get_apply built), bind_apply_ok (get_apply built)]
  cases fresh : built.inCreation.find? name with
  | some present => rfl
  | none =>
      have resolved : ∀ points,
          resolveAll second points ((built.noted (.entered name raw)).enter name raw) =
            resolveAll first points ((built.noted (.entered name raw)).enter name raw) :=
        resolveAll_congr fun asked middle other asks =>
          same middle other (.creating registered construction fresh asks)
      have developed : develop second definition name raw
          ((built.noted (.entered name raw)).enter name raw) =
            develop first definition name raw
              ((built.noted (.entered name raw)).enter name raw) := by
        simp only [develop, bind_apply, resolved]
      simp only [developGuarded, bind_apply, note_apply, tryCatch_apply, between_apply, developed]

/-- How a request is answered depends on other requests only in the states that are
nested in it. -/
theorem answer_congr
    (keeps : KeepsConfiguration first) :
    answer second name start = answer first name start := by
  unfold answer
  rw [bind_apply_ok (get_apply start), bind_apply_ok (get_apply start)]
  cases start.singletons.find? name with
  | some bean => rfl
  | none =>
      cases registered : start.registry.find? name with
      | none => rfl
      | some definition =>
          simp only [make]
          rw [bind_apply_ok (get_apply start), bind_apply_ok (get_apply start)]
          split
          next => rfl
          next idle =>
            have constructed := constructGuarded_congr same registered idle
            rcases constructGuarded_cases keeps definition idle with
              ⟨asked, middle, error, _, _, failed⟩ | ⟨raw, ended, construction, built⟩
            · rw [bind_apply_error failed, bind_apply_error (constructed.trans failed)]
            · rw [bind_apply_ok built, bind_apply_ok (constructed.trans built),
                bind_apply_ok (note_apply _ _), bind_apply_ok (note_apply _ _)]
              exact settle_congr same registered construction

end Congruence
end Container
end BeanContainer
