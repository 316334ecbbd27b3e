import BeanContainer.Proofs.Request.Nesting

/-!
# How deep requests are nested

Every request inside a request is made while one more name is constructing or one more
bean is in creation, and there are only so many names.  So the allowance that bounds
how deep requests may be nested never decides a result: whatever would happen below it,
the outcome is the same, and it is the one that the recursion without a bound describes.
-/

namespace BeanContainer
namespace Container

open Running ContainerM

/-! ## The marks that can still be set -/

/-- How many marks of registered names are not set: each name can be marked as
constructing and can have a bean in creation. -/
def slack (container : Container) : Nat :=
  container.registry.definitions.keys.countP (fun name => name ∉ container.constructing) +
    container.registry.definitions.keys.countP
      fun name => (container.inCreation.find? name).isNone

theorem slack_le (container : Container) : container.slack ≤ 2 * container.registry.size := by
  have length : container.registry.definitions.keys.length = container.registry.size :=
    List.length_map _
  have constructing := List.countP_le_length (l := container.registry.definitions.keys)
    (p := fun name => decide (name ∉ container.constructing))
  have inCreation := List.countP_le_length (l := container.registry.definitions.keys)
    (p := fun name => (container.inCreation.find? name).isNone)
  unfold slack
  omega

/-- A test that holds less often and fails for some member counts fewer members. -/
theorem countP_lt_of_imp {α : Type} {narrow wide : α → Bool} {list : List α} {item : α}
    (implies : ∀ other ∈ list, narrow other = true → wide other = true) (member : item ∈ list)
    (holds : wide item = true) (fails : narrow item = false) :
    list.countP narrow < list.countP wide := by
  have twice : list.filter narrow = (list.filter wide).filter narrow := by
    rw [List.filter_filter]
    apply List.filter_congr
    intro other isMember
    cases equal : narrow other with
    | false => rfl
    | true => simp [implies other isMember equal]
  rw [List.countP_eq_length_filter, List.countP_eq_length_filter, twice]
  apply List.length_filter_lt_length_iff_exists.2
  exact ⟨item, by simp [member, holds], by simp [fails]⟩

/-- Marking an idle name as constructing takes one mark. -/
theorem slack_beginConstruction_lt {container : Container} {name : String}
    {definition : Definition} (registered : container.registry.find? name = some definition)
    (idle : name ∉ container.constructing) :
    (container.beginConstruction name).slack < container.slack := by
  have member : name ∈ container.registry.definitions.keys :=
    Table.mem_keys_iff.2 (congrArg Option.isSome registered)
  refine Nat.add_lt_add_right (countP_lt_of_imp ?_ member ?_ ?_) _
  · intro other _ unmarked
    simp only [beginConstruction, List.mem_cons, not_or, decide_eq_true_eq] at unmarked ⊢
    exact unmarked.2
  · simpa using idle
  · simp [beginConstruction]

/-- Entering a bean for a name that has none in creation takes one mark. -/
theorem slack_enter_lt {container : Container} {name : String} {definition : Definition}
    (raw : Bean) (registered : container.registry.find? name = some definition)
    (fresh : container.inCreation.find? name = none) :
    (container.enter name raw).slack < container.slack := by
  have member : name ∈ container.registry.definitions.keys :=
    Table.mem_keys_iff.2 (congrArg Option.isSome registered)
  refine Nat.add_lt_add_left (countP_lt_of_imp ?_ member ?_ ?_) _
  · intro other _ absent
    by_cases same : other = name
    · subst same
      simp [fresh]
    · simpa [enter, Table.find?_insert_of_ne _ _ same] using absent
  · simp [fresh]
  · simp [enter]

/-- Complete requests leave all marks as they were. -/
theorem Restores.slack {before after : Container} (restores : Restores before after) :
    after.slack = before.slack := by
  unfold Container.slack
  rw [restores.registry, restores.constructing, restores.inCreation]

section Nesting

variable {request : Request}
  (each : ∀ name container, Restores container (request name container).2)
include each

/-- Requests inside a request are made with fewer marks left. -/
theorem Nested.slack_lt {name : String} {start middle : Container}
    (nested : Nested request name start middle) : middle.slack < start.slack := by
  cases nested with
  | constructing registered idle asks =>
      rw [(asks.restores each).slack]
      exact slack_beginConstruction_lt registered idle
  | @creating definition raw built _ _ registered construction fresh asks =>
      have entered : Restores start (built.noted (.entered name raw)) :=
        (construction.restores each).trans (.noted _ _)
      have stillRegistered : (built.noted (.entered name raw)).registry.find? name =
          some definition := by
        rw [entered.registry]
        exact registered
      rw [(asks.restores each).slack, ← entered.slack]
      exact slack_enter_lt raw stillRegistered fresh

/-- The caches agree in the middle of a request if they did before it. -/
theorem Nested.agrees {name : String} {start middle : Container}
    (nested : Nested request name start middle) (agree : start.CachesAgree) :
    middle.CachesAgree := by
  cases nested with
  | constructing _ _ asks => exact (asks.restores each).agrees agree
  | creating _ construction _ asks =>
      exact (asks.restores each).agrees ((construction.restores each).agrees agree)

end Nesting

/-! ## Allowances do not matter -/

/-- Answers requests that are nested down to the depth; those below it are answered in
any other way. -/
def requestOver (bottom : Request) : (depth : Nat) → Request
  | 0 => bottom
  | depth + 1 => answer (requestOver bottom depth)

theorem requestOver_eq (bottom : Request) {depth allowance : Nat} {name : String}
    {start : Container} (deep : start.slack < depth) (enough : start.slack < allowance) :
    requestOver bottom depth name start = requestWithin allowance name start := by
  induction depth generalizing allowance name start with
  | zero => omega
  | succ depth ih =>
      cases allowance with
      | zero => omega
      | succ allowance =>
          refine answer_congr ?_ (keepsConfiguration (requestWithin_restores allowance))
          intro middle other nested
          have fewer := nested.slack_lt (requestWithin_restores allowance)
          exact ih (by omega) (by omega)

/-- Whatever is below it, a depth that exceeds the marks gives the answer. -/
theorem requestOver_eq_request (bottom : Request) {depth : Nat} {name : String}
    {start : Container} (deep : start.slack < depth) :
    requestOver bottom depth name start = request name start := by
  rw [request_apply]
  have bound := start.slack_le
  exact requestOver_eq bottom deep (by omega)

/-- A request is answered as the recursion without a bound describes. -/
theorem request_eq_answer (name : String) (start : Container) :
    request name start = answer request name start := by
  have bound := start.slack_le
  rw [request_apply]
  symm
  refine answer_congr ?_ (keepsConfiguration (requestWithin_restores _))
  intro middle other nested
  have fewer := nested.slack_lt (requestWithin_restores _)
  rw [← requestOver_eq_request request (Nat.lt_succ_self middle.slack)]
  exact requestOver_eq request (Nat.lt_succ_self _) (by omega)

/-- A request is answered in one of the ways that `Answering` lists. -/
theorem request_cases (name : String) (start : Container) :
    Answering request name start (request name start).1 (request name start).2 := by
  have answering := answer_cases (keepsConfiguration request_restores) name start
  rw [← request_eq_answer] at answering
  exact answering

/-- What holds of every way to answer a request if it holds of the requests inside, holds of
all requests. -/
theorem request_induct
    {motive : String → Container → Except BeanError Handout → Container → Prop}
    (step : ∀ name start result final, Answering request name start result final →
      (∀ other middle, Nested request name start middle →
        motive other middle (request other middle).1 (request other middle).2) →
      motive name start result final) (name : String) (start : Container) :
    motive name start (request name start).1 (request name start).2 := by
  generalize taken : start.slack = slack
  induction slack using Nat.strongRecOn generalizing name start with
  | ind slack ih =>
      refine step name start _ _ (request_cases name start) ?_
      intro other middle nested
      exact ih middle.slack (taken ▸ nested.slack_lt request_restores) other middle rfl

/-! ## Active calls -/

/-- A request for a name, made in a state of the container. -/
structure Call where
  name : String
  container : Container

/-- The outer call makes the inner one: its outcome depends on how the inner one is
answered. -/
def Calls (outer inner : Call) : Prop :=
  ∃ other : Request,
    (∀ name container, ¬ (name = inner.name ∧ container = inner.container) →
      other name container = request name container) ∧
    answer other outer.name outer.container ≠ answer request outer.name outer.container

/-- The call is active while the outermost one is answered, and with it so many calls:
all those between the two, and the two themselves. -/
inductive Active (outermost : Call) : Nat → Call → Prop
  | outermost : Active outermost 1 outermost
  | inner {count : Nat} {outer inner : Call} (active : Active outermost count outer)
      (calls : Calls outer inner) : Active outermost (count + 1) inner

/-- Calls are made only in the states that are nested in the outer call. -/
theorem Calls.nested {outer inner : Call} (calls : Calls outer inner) :
    Nested request outer.name outer.container inner.container := by
  obtain ⟨other, same, differs⟩ := calls
  apply Classical.byContradiction
  intro apart
  apply differs
  refine answer_congr ?_ (keepsConfiguration request_restores)
  intro middle name nested
  apply same
  intro isInner
  rw [isInner.2] at nested
  exact apart nested

/-- A call that is answered from the cache makes no other. -/
theorem Calls.uncached {outer inner : Call} (calls : Calls outer inner) :
    outer.container.singletons.find? outer.name = none := by
  obtain ⟨other, _, differs⟩ := calls
  cases found : outer.container.singletons.find? outer.name with
  | none => rfl
  | some bean =>
      apply absurd _ differs
      simp only [answer, bind_apply, get_apply, found]

/-- Each active call has taken a mark. -/
theorem Active.count_add_slack_le {outermost call : Call} {count : Nat}
    (active : Active outermost count call) :
    count + call.container.slack ≤ outermost.container.slack + 1 := by
  induction active with
  | outermost => omega
  | inner _ calls ih =>
      have fewer := calls.nested.slack_lt request_restores
      omega

end Container
end BeanContainer
