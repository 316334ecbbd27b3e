import BeanContainer.Proofs.Heap.Wiring
import BeanContainer.Proofs.Request.Bookkeeping

/-!
# Requests fill cells of new beans only

A request wires nothing but the beans that were constructed on its way.  All beans that
were there before it hold the same afterwards.
-/

namespace BeanContainer

/-- The heap was extended, and no cell of an older record was filled. -/
abbrev Heap.Grows (before after : Heap) : Prop :=
  Heap.Extends (fun index => before.contents.size ≤ index) (fun _ => True) before after

namespace Heap.Grows

variable {first second third : Heap}

theorem refl (heap : Heap) : Heap.Grows heap heap := Heap.Extends.refl heap

theorem trans (one : Heap.Grows first second) (two : Heap.Grows second third) :
    Heap.Grows first third := by
  have later : Heap.Extends (fun index => first.contents.size ≤ index) (fun _ => True)
      second third := by
    refine two.mono ?_ fun _ _ => trivial
    intro index behind
    exact Nat.le_trans one.size_le behind
  exact Heap.Extends.trans one later

theorem note (heap : Heap) (event : Event) : Heap.Grows heap (heap.note event) :=
  Heap.Extends.note heap trivial

theorem create (heap : Heap) (type : TypeName) (arguments : List Value)
    (cells : List (String × Value)) : Heap.Grows heap (heap.create type arguments cells).2 :=
  Heap.Extends.create heap type arguments cells fun _ => trivial

end Heap.Grows

/-- Growth does not matter to what was passed before. -/
theorem Heap.Between.grows {fills rest : Nat → Prop} {first second third view : Heap}
    {journal : List Event} (between : Heap.Between fills rest first second journal view)
    (grows : second.Grows third) : Heap.Between fills rest first third journal view :=
  between.before grows fun _ isInside isNew => absurd isInside (Nat.not_lt.2 isNew)

namespace Container

section Ways

variable {request : Request}
  (each : ∀ name start, Heap.Grows start.heap (request name start).2.heap)
include each

theorem Asks.grows {start final : Container} {asked : Asked}
    (asks : Asks request start asked final) : start.heap.Grows final.heap := by
  induction asks with
  | nil => exact .refl _
  | @cons start middle final name result asked answered _ ih =>
      have first := each name start
      rw [answered] at first
      exact first.trans ih

/-- The heap only grows while the fields of a bean are resolved. -/
theorem Asks.grows_entered {built middle : Container} {name : String} {raw : Bean} {asked : Asked}
    (asks : Asks request ((built.noted (.entered name raw)).enter name raw) asked middle) :
    built.heap.Grows middle.heap :=
  Heap.Grows.trans (.note _ _) (asks.grows each)

/-- A constructed bean is a new record. -/
theorem Construction.grows {definition : Definition} {name : String} {start built : Container}
    {raw : Bean} (construction : Construction request definition name start raw built) :
    start.heap.Grows built.heap ∧
      ∃ record, raw = .plain record ∧ start.heap.contents.size ≤ record.index ∧
        record.index < built.heap.contents.size := by
  cases construction with
  | @intro asked middle supply arguments cells _ asks =>
      have before := asks.grows each
      refine ⟨(before.trans (.create _ _ _ _)).trans (.note _ _), _, rfl, before.size_le, ?_⟩
      simp [noted, withHeap, endConstruction, Heap.create, Heap.allocate, Heap.note]

omit each in
/-- Developing a bean fills the cells of this bean only. -/
theorem Finishing.wires {definition : Definition} {name : String} {raw : Bean} {asked : Asked}
    {middle : Container} {result : Except BeanError Unit} {heap : Heap}
    {sees : Asked → Heap → Prop}
    (finishing : Finishing definition name raw sees asked middle result heap) :
    Heap.Extends raw.IsAt (fun event => ¬ event.IsOfRequest) middle.heap heap := by
  cases finishing with
  | unresolved => exact .refl _
  | @run supply _ _ _ ran =>
      have wires := finish_wires middle.processors definition name raw supply middle.heap
      rw [ran] at wires
      exact wires.grows

omit each in
/-- A bean that is newer than a heap is developed without touching the beans of the heap. -/
theorem Finishing.grows {definition : Definition} {name : String} {raw : Bean} {asked : Asked}
    {middle : Container} {result : Except BeanError Unit} {heap older : Heap}
    (isNew : ∃ record, raw = .plain record ∧ older.contents.size ≤ record.index)
    {sees : Asked → Heap → Prop}
    (finishing : Finishing definition name raw sees asked middle result heap) :
    Heap.Extends (fun index => older.contents.size ≤ index) (fun _ => True) middle.heap heap := by
  refine finishing.wires.mono ?_ fun _ _ => trivial
  intro index isAt
  obtain ⟨record, isRaw, behind⟩ := isNew
  obtain ⟨other, isOther, rfl⟩ := isAt
  rw [isRaw] at isOther
  cases isOther
  exact behind

/-- A bean that was entered is developed among newer ones. -/
theorem Construction.developing {definition : Definition} {name : String}
    {start built middle : Container} {raw : Bean} {asked : Asked} {heap : Heap}
    {result : Except BeanError Unit}
    (construction : Construction request definition name start raw built)
    (asks : Asks request ((built.noted (.entered name raw)).enter name raw) asked middle)
    {sees : Asked → Heap → Prop}
    (finishing : Finishing definition name raw sees asked middle result heap) :
    start.heap.Grows heap := by
  obtain ⟨before, record, isRaw, behind, _⟩ := construction.grows each
  have asking : built.heap.Grows middle.heap :=
    Heap.Grows.trans (.note _ _) (asks.grows each)
  exact Heap.Extends.trans (before.trans asking) (finishing.grows ⟨record, isRaw, behind⟩)

theorem Making.grows {definition : Definition} {name : String} {start final : Container}
    {result : Except BeanError Handout}
    (making : Making request definition name start result final) :
    start.heap.Grows final.heap := by
  cases making with
  | busy => exact .refl _
  | unconstructed _ asks => exact asks.grows each
  | refused construction => exact (construction.grows each).1
  | shared construction => exact (construction.grows each).1.trans (.note _ _)
  | abandoned construction _ asks finishing =>
      exact (construction.developing each asks finishing).trans (.note _ _)
  | finished construction _ asks finishing =>
      rw [finished_heap]
      exact ((construction.developing each asks finishing).trans (.note _ _)).trans (.note _ _)

theorem Answering.grows {name : String} {start final : Container}
    {result : Except BeanError Handout}
    (answering : Answering request name start result final) : start.heap.Grows final.heap := by
  cases answering with
  | cached => exact .note _ _
  | unknown => exact .refl _
  | made _ _ making => exact making.grows each

end Ways

/-- No request fills cells of beans that were there before it. -/
theorem requestWithin_grows (allowance : Nat) (name : String) (start : Container) :
    start.heap.Grows (requestWithin allowance name start).2.heap := by
  refine requestWithin_induct (motive := fun _ start _ final => start.heap.Grows final.heap)
    ?_ ?_ allowance name start
  · exact fun _ start => .refl start.heap
  · intro allowance grows name start result final answering
    exact answering.grows grows

theorem request_grows (name : String) (start : Container) :
    start.heap.Grows (request name start).2.heap := by
  rw [request_apply]
  exact requestWithin_grows _ name start

end Container
end BeanContainer
