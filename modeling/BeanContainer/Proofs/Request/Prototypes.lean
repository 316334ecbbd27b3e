import BeanContainer.Proofs.Request.Growth
import Mathlib.Data.List.Nodup

/-!
# Prototypes are new each time

While a name is neither registered nor cached as a singleton, each bean that is handed out for it
was created for that one request.  Records are numbered as they are created: what is handed out for the
arguments of a bean lies before the bean, and what is handed out for its fields behind it.
-/

namespace BeanContainer

/-- The place of the record that the event hands out for the name. -/
def Event.issue? (name : String) : Event → Option Nat
  | .handedOut other bean => if other = name then some bean.innermost.index else none
  | .created .. | .constructed .. | .entered .. | .resolved .. | .wired .. | .inspected ..
  | .named .. | .acquainted .. | .before .. | .started .. | .after .. | .committed ..
  | .abandoned .. | .notified .. | .destroyed .. => none

theorem Event.issue?_handedOut_self (name : String) (bean : Bean) :
    (Event.handedOut name bean).issue? name = some bean.innermost.index := by
  simp [issue?]

theorem Event.issue?_handedOut_of_ne {name other : String} (differs : other ≠ name) (bean : Bean) :
    (Event.handedOut other bean).issue? name = none := by
  simp [issue?, differs]

/-- Only requests hand out beans. -/
theorem Event.issue?_of_not {event : Event} (inner : ¬ event.IsOfRequest) (name : String) :
    event.issue? name = none := by
  cases event with
  | handedOut => exact absurd trivial inner
  | _ => rfl

/-- The places of the records that the events hand out for the name. -/
def issued (name : String) (events : List Event) : List Nat := events.filterMap (·.issue? name)

theorem issued_append (name : String) (events later : List Event) :
    issued name (events ++ later) = issued name events ++ issued name later :=
  List.filterMap_append

/-- What is handed out at different times lies at different places, if all these are distinct. -/
theorem issued_apart {name : String} {before after : List Event} {bean held : Bean}
    (apart : (issued name (before ++ .handedOut name bean :: after)).Nodup)
    (member : .handedOut name held ∈ before ++ after) :
    held.innermost.index ≠ bean.innermost.index := by
  have head : issued name (.handedOut name bean :: after) =
      bean.innermost.index :: issued name after :=
    List.filterMap_cons_some (Event.issue?_handedOut_self name bean)
  rw [issued_append, head, List.nodup_middle, ← issued_append, List.nodup_cons] at apart
  intro same
  rw [← same] at apart
  exact apart.1 (List.mem_filterMap.2 ⟨_, member, Event.issue?_handedOut_self name held⟩)

/-- Whatever was handed out for the name between the two heaps was created between them, and was
handed out once. -/
structure Heap.Issues (name : String) (before after : Heap) : Prop where
  size_le : before.contents.size ≤ after.contents.size
  journal : ∃ events, after.journal.toList = before.journal.toList ++ events ∧
    (∀ place ∈ issued name events,
      before.contents.size ≤ place ∧ place < after.contents.size) ∧
    (issued name events).Nodup

/-- Nothing was handed out for the name between the two heaps. -/
abbrev Heap.Skips (name : String) : Heap → Heap → Prop :=
  Heap.Extends (fun _ => True) fun event => event.issue? name = none

namespace Heap.Issues

variable {name : String} {first second third fourth : Heap}

theorem of_skips (skips : Heap.Skips name first second) :
    Heap.Issues name first second where
  size_le := skips.size_le
  journal := by
    obtain ⟨events, journal, silent⟩ := skips.journal
    have none : issued name events = [] := List.filterMap_eq_nil_iff.2 silent
    exact ⟨events, journal, by simp [none], by simp [none]⟩

theorem refl (name : String) (heap : Heap) : Heap.Issues name heap heap := of_skips (.refl heap)

/-- What was handed out later was created later. -/
theorem trans (one : Heap.Issues name first second) (two : Heap.Issues name second third) :
    Heap.Issues name first third where
  size_le := Nat.le_trans one.size_le two.size_le
  journal := by
    obtain ⟨events, journal, placed, apart⟩ := one.journal
    obtain ⟨more, journalLater, placedLater, apartLater⟩ := two.journal
    have before := one.size_le
    have after := two.size_le
    refine ⟨events ++ more, by rw [journalLater, journal, List.append_assoc], ?_, ?_⟩
    · intro place member
      rw [issued_append] at member
      rcases List.mem_append.1 member with early | late
      · have := placed place early
        omega
      · have := placedLater place late
        omega
    · rw [issued_append]
      refine List.nodup_append.2 ⟨apart, apartLater, ?_⟩
      rintro place early other late rfl
      have := placed place early
      have := placedLater place late
      omega

/-- A bean is handed out that lies behind what was handed out before it was created, and before what
was handed out since. -/
theorem handOut {bean : Bean} (one : Heap.Issues name first second)
    (creates : Heap.Skips name second third) (two : Heap.Issues name third fourth)
    (behind : second.contents.size ≤ bean.innermost.index)
    (inside : bean.innermost.index < third.contents.size) :
    Heap.Issues name first (fourth.note (.handedOut name bean)) where
  size_le := ((one.trans (.of_skips creates)).trans two).size_le
  journal := by
    obtain ⟨events, journal, placed, apart⟩ := one.journal
    obtain ⟨between, journalBetween, silent⟩ := creates.journal
    obtain ⟨more, journalLater, placedLater, apartLater⟩ := two.journal
    have before := one.size_le
    have after := two.size_le
    have placesOf : issued name (events ++ between ++ more ++ [.handedOut name bean]) =
        issued name events ++ (issued name more ++ [bean.innermost.index]) := by
      have none : issued name between = [] := List.filterMap_eq_nil_iff.2 silent
      have last : issued name [.handedOut name bean] = [bean.innermost.index] := by
        simp [issued, Event.issue?_handedOut_self]
      simp only [issued_append, none, last, List.nil_append, List.append_assoc]
    refine ⟨events ++ between ++ more ++ [.handedOut name bean], ?_, ?_, ?_⟩
    · simp [Heap.note, journalLater, journalBetween, journal]
    · intro place member
      show first.contents.size ≤ place ∧ place < fourth.contents.size
      rw [placesOf, List.mem_append, List.mem_append, List.mem_singleton] at member
      rcases member with early | late | rfl
      · have := placed place early
        omega
      · have := placedLater place late
        omega
      · omega
    · rw [placesOf]
      refine List.nodup_append.2 ⟨apart, List.nodup_append.2 ⟨apartLater, by simp, ?_⟩, ?_⟩
      · intro place late other isLast same
        have := placedLater place late
        rw [List.mem_singleton.1 isLast] at same
        omega
      · intro place early other member same
        have := placed place early
        rw [List.mem_append, List.mem_singleton] at member
        rcases member with late | rfl
        · have := placedLater other late
          omega
        · omega

end Heap.Issues

namespace Container

/-- No singleton is registered or cached under the name. -/
structure Unshared (container : Container) (name : String) : Prop where
  scope : ¬ container.IsSingleton name
  uncached : container.singletons.find? name = none

/-- Only singletons are cached by requests. -/
theorem Unshared.restores {before after : Container} {name : String}
    (unshared : before.Unshared name) (restores : Restores before after) : after.Unshared name where
  scope := by
    rw [IsSingleton, restores.registry]
    exact unshared.scope
  uncached := by
    cases cached : after.singletons.find? name with
    | none => rfl
    | some bean =>
        exact absurd (restores.introduces name bean cached unshared.uncached) unshared.scope

section Ways

variable {request : Request} {wanted : String}
  (each : ∀ name start, Restores start (request name start).2)
  (issuing : ∀ name start, Unshared start wanted →
    start.heap.Issues wanted (request name start).2.heap)
include each issuing

theorem Asks.issues {start final : Container} {asked : Asked} (unshared : start.Unshared wanted)
    (asks : Asks request start asked final) : start.heap.Issues wanted final.heap := by
  induction asks with
  | nil => exact .refl _ _
  | @cons start middle final name result asked answered _ ih =>
      have first := issuing name start unshared
      have restores := each name start
      rw [answered] at first restores
      exact first.trans (ih (unshared.restores restores))

/-- What the constructor of a bean is given is created before the bean. -/
theorem Construction.issues {definition : Definition} {name : String} {start built : Container}
    {raw : Bean} (unshared : start.Unshared wanted)
    (construction : Construction request definition name start raw built) :
    ∃ resolved, start.heap.Issues wanted resolved ∧ resolved.Skips wanted built.heap ∧
      resolved.contents.size ≤ raw.innermost.index ∧
      raw.innermost.index < built.heap.contents.size := by
  cases construction with
  | @intro asked middle supply arguments cells _ asks =>
      have marked : (start.beginConstruction name).Unshared wanted :=
        ⟨unshared.scope, unshared.uncached⟩
      have resolving := asks.issues each issuing marked
      refine ⟨middle.heap, resolving, ?_, Nat.le_refl _, ?_⟩
      · exact .trans (.create _ _ _ _ fun _ => rfl) (.note _ rfl)
      · show middle.heap.contents.size < _
        simp [noted, withHeap, endConstruction, Heap.create, Heap.allocate, Heap.note]

/-- What a bean is given while it is developed is created behind it. -/
theorem Construction.issues_developing {definition : Definition} {name : String}
    {start built middle : Container} {raw : Bean} {asked : Asked} {heap : Heap}
    {result : Except BeanError Unit} (unshared : start.Unshared wanted)
    (construction : Construction request definition name start raw built)
    (asks : Asks request ((built.noted (.entered name raw)).enter name raw) asked middle)
    {sees : Asked → Heap → Prop}
    (finishing : Finishing definition name raw sees asked middle result heap) :
    built.heap.Issues wanted heap := by
  obtain ⟨scope, uncached⟩ := unshared.restores (construction.restores each)
  have entered : ((built.noted (.entered name raw)).enter name raw).Unshared wanted :=
    ⟨scope, uncached⟩
  have entering : built.heap.Skips wanted (built.noted (.entered name raw)).heap := .note _ rfl
  have resolving := asks.issues each issuing entered
  have wiring : middle.heap.Skips wanted heap :=
    finishing.wires.mono (fun _ _ => trivial) fun _ inner => Event.issue?_of_not inner wanted
  exact ((Heap.Issues.of_skips entering).trans resolving).trans (.of_skips wiring)

theorem Making.issues {definition : Definition} {name : String} {start final : Container}
    {result : Except BeanError Handout} (unshared : start.Unshared wanted)
    (registered : start.registry.find? name = some definition)
    (making : Making request definition name start result final) :
    start.heap.Issues wanted final.heap := by
  have marked : (start.beginConstruction name).Unshared wanted :=
    ⟨unshared.scope, unshared.uncached⟩
  have constructs : ∀ {raw built}, Construction request definition name start raw built →
      start.heap.Issues wanted built.heap := by
    intro raw built construction
    obtain ⟨resolved, before, creates, _⟩ := construction.issues each issuing unshared
    exact before.trans (.of_skips creates)
  cases making with
  | busy => exact .refl _ _
  | unconstructed _ asks =>
      have resolving := asks.issues each issuing marked
      exact resolving
  | refused construction => exact constructs construction
  | shared construction _ scope =>
      have differs : name ≠ wanted := by
        rintro rfl
        exact unshared.scope ⟨definition, registered, scope⟩
      exact (constructs construction).trans
        (.of_skips (.note _ (Event.issue?_handedOut_of_ne differs _)))
  | abandoned construction _ asks finishing =>
      exact ((constructs construction).trans
        (construction.issues_developing each issuing unshared asks finishing)).trans
          (.of_skips (.note _ rfl))
  | @finished raw built _ _ heap construction _ asks finishing =>
      rw [finished_heap]
      have committed : built.heap.Issues wanted (heap.note (.committed name raw)) :=
        (construction.issues_developing each issuing unshared asks finishing).trans
          (.of_skips (.note _ rfl))
      by_cases same : name = wanted
      · subst same
        obtain ⟨resolved, before, creates, behind, inside⟩ :=
          construction.issues each issuing unshared
        exact before.handOut creates committed behind inside
      · exact ((constructs construction).trans committed).trans
          (.of_skips (.note _ (Event.issue?_handedOut_of_ne same _)))

theorem Answering.issues {name : String} {start final : Container}
    {result : Except BeanError Handout} (unshared : start.Unshared wanted)
    (answering : Answering request name start result final) :
    start.heap.Issues wanted final.heap := by
  cases answering with
  | cached found =>
      have differs : name ≠ wanted := by
        rintro rfl
        rw [unshared.uncached] at found
        cases found
      exact .of_skips (.note _ (Event.issue?_handedOut_of_ne differs _))
  | unknown => exact .refl _ _
  | made _ registered making => exact making.issues each issuing unshared registered

end Ways

/-- A request hands out for the name what it created, each of these beans once. -/
theorem request_issues (name : String) {wanted : String} {start : Container}
    (unshared : start.Unshared wanted) :
    start.heap.Issues wanted (request name start).2.heap := by
  rw [request_apply]
  refine requestWithin_induct (motive := fun _ start _ final => start.Unshared wanted →
    start.heap.Issues wanted final.heap) ?_ ?_ _ name start unshared
  · exact fun _ start _ => .refl wanted start.heap
  · intro allowance issuing name start result final answering unshared
    exact answering.issues (requestWithin_restores allowance) issuing unshared

end Container
end BeanContainer
