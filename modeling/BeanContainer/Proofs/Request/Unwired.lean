import BeanContainer.Proofs.Heap.Turns
import BeanContainer.Proofs.Heap.Filling
import BeanContainer.Proofs.Request.Depth
import BeanContainer.Proofs.Request.Growth

/-!
# Beans wait for all their fields

A bean may be handed out while it is in creation.  Until all its fields are resolved it is as its
constructor made it, in every state in which some request is made.
-/

namespace BeanContainer
namespace Heap

/-- The bean is as its constructor made it: no cell was filled since. -/
def Waits (heap : Heap) (definition : Definition) (record : Record) : Prop :=
  ∃ supply cells, definition.recipe.Yields supply (heap.read record).arguments cells ∧
    (heap.read record).cells = Table.ofList cells

/-- Each bean that was constructed between the two heaps is a new record, and it waits unless all
its fields are resolved. -/
def Withholds (before after : Heap) : Prop :=
  ∀ owner definition record,
    before.Notes after (.constructed owner definition (.plain record)) →
      .resolved owner (.plain record) ∉ after.journal.toList →
        before.contents.size ≤ record.index ∧ record.index < after.contents.size ∧
          after.Waits definition record

variable {first second third : Heap} {fills : Nat → Prop} {adds : Event → Prop}

/-- A bean whose cells are not filled keeps waiting. -/
theorem Waits.extend {definition : Definition} {record : Record}
    (waits : first.Waits definition record) (extended : Extends fills adds first second)
    (inside : record.index < first.contents.size) (untouched : ¬ fills record.index) :
    second.Waits definition record := by
  unfold Waits
  rw [extended.read_cells inside untouched, extended.read_arguments inside]
  exact waits

namespace Withholds

/-- Nothing is withheld where nothing is constructed. -/
theorem of_extends (extended : Extends fills adds first second)
    (unconstructed : ∀ owner definition bean, ¬ adds (.constructed owner definition bean)) :
    Withholds first second :=
  fun _ _ _ noted => absurd (noted.of_extends extended) (unconstructed _ _ _)

theorem refl (heap : Heap) : Withholds heap heap := by
  have extended : heap.Continues heap := .refl heap
  exact of_extends extended fun _ _ _ inner => inner trivial

/-- What was withheld stays so while only other cells are filled. -/
theorem trans (one : Withholds first second) (two : Withholds second third)
    (grows : first.Grows second) (extended : Extends fills adds second third)
    (untouched : ∀ index, first.contents.size ≤ index → index < second.contents.size →
      ¬ fills index) : Withholds first third := by
  intro owner definition record noted unresolved
  rcases noted.split grows.journal_isPrefix extended.journal_isPrefix with early | late
  · obtain ⟨isNew, inside, waits⟩ :=
      one owner definition record early fun resolved => unresolved (extended.mem_journal resolved)
    exact ⟨isNew, Nat.lt_of_lt_of_le inside extended.size_le,
      waits.extend extended inside (untouched _ isNew inside)⟩
  · obtain ⟨isNew, inside, waits⟩ := two owner definition record late unresolved
    exact ⟨Nat.le_trans grows.size_le isNew, inside, waits⟩

/-- Requests fill no cells of beans that were there before them. -/
theorem grows (one : Withholds first second) (two : Withholds second third)
    (grows : first.Grows second) (growsLater : second.Grows third) : Withholds first third :=
  one.trans two grows growsLater fun _ _ inside behind => Nat.not_le_of_lt inside behind

theorem note (one : Withholds first second) (grows : first.Grows second) {event : Event}
    (unconstructed : ∀ owner definition bean, event ≠ .constructed owner definition bean) :
    Withholds first (second.note event) := by
  have extended : Extends (fun _ => False) (· = event) second (second.note event) := .note _ rfl
  exact one.trans (of_extends extended fun owner definition bean same =>
    unconstructed owner definition bean same.symm) grows extended fun _ _ _ => not_false

end Withholds
end Heap

namespace Container

open Running

section Ways

variable {request : Request}
  (growing : ∀ name start, Heap.Grows start.heap (request name start).2.heap)
  (withholding : ∀ name start, Heap.Withholds start.heap (request name start).2.heap)
include growing withholding

theorem Asks.withholds {start final : Container} {asked : Asked}
    (asks : Asks request start asked final) : Heap.Withholds start.heap final.heap := by
  induction asks with
  | nil => exact .refl _
  | @cons start middle final name result asked answered rest ih =>
      have first := withholding name start
      have grows := growing name start
      rw [answered] at first grows
      exact first.grows ih grows (rest.grows growing)

/-- A bean is constructed last, behind all beans that its arguments led to, and waits then. -/
theorem Construction.withholds {definition : Definition} {name : String}
    {start built : Container} {raw : Bean}
    (construction : Construction request definition name start raw built) :
    ∃ (earlier : Heap) (record : Record), raw = .plain record ∧
      record.index = earlier.contents.size ∧ record.index < built.heap.contents.size ∧
      start.heap.Grows earlier ∧ Heap.Withholds start.heap earlier ∧
      Heap.Extends (fun _ => False) (fun event => ∀ owner other bean,
        event = .constructed owner other bean → owner = name ∧ other = definition ∧ bean = raw)
          earlier built.heap ∧
      Heap.Withholds earlier built.heap := by
  obtain ⟨_, _, isRecord, _, inside⟩ := construction.grows growing
  cases construction with
  | @intro asked middle supply arguments cells _ asks _ yields =>
      have extended : Heap.Extends (fun _ => False) (fun event => ∀ owner other bean,
          event = .constructed owner other bean → owner = name ∧ other = definition ∧
            bean = (middle.heap.create definition.type arguments cells).1) middle.heap
          ((middle.heap.create definition.type arguments cells).2.note (.constructed name
            definition (middle.heap.create definition.type arguments cells).1)) := by
        refine .trans (.create _ _ _ _ (by simp)) (.note _ ?_)
        rintro owner other bean same
        cases same
        exact ⟨rfl, rfl, rfl⟩
      cases isRecord
      refine ⟨middle.heap, _, rfl, rfl, inside, asks.grows growing,
        asks.withholds growing withholding, extended, ?_⟩
      intro owner other record noted _
      obtain ⟨_, rfl, isRaw⟩ := noted.of_extends extended owner other _ rfl
      have isRead := Heap.read_create isRaw.symm
      cases isRaw
      refine ⟨Nat.le_refl _, inside, supply, cells, ?_⟩
      show other.recipe.Yields supply
        ((middle.heap.create other.type arguments cells).2.read _).arguments cells ∧
          ((middle.heap.create other.type arguments cells).2.read _).cells = _
      rw [isRead]
      exact ⟨yields, rfl⟩

/-- While the fields of an entered bean are resolved it waits, and so do those that are made
meanwhile. -/
theorem Construction.withholds_entered {definition : Definition} {name : String}
    {start built middle : Container} {raw : Bean} {asked : Asked}
    (construction : Construction request definition name start raw built)
    (asks : Asks request ((built.noted (.entered name raw)).enter name raw) asked middle) :
    Heap.Withholds start.heap middle.heap := by
  obtain ⟨earlier, record, _, _, _, before, withholds, extended, waits⟩ :=
    construction.withholds growing withholding
  have grows : earlier.Grows built.heap :=
    extended.mono (fun _ impossible => impossible.elim) fun _ _ => trivial
  have entered : Heap.Withholds start.heap (built.noted (.entered name raw)).heap :=
    (withholds.grows waits before grows).note (before.trans grows) (by simp)
  exact entered.grows (asks.withholds growing withholding)
    ((before.trans grows).trans (.note _ _)) (asks.grows growing)

/-- Once all its fields are resolved a bean may be wired, and the others wait on. -/
theorem Construction.withholds_developing {definition : Definition} {name : String}
    {start built middle : Container} {raw : Bean} {asked : Asked} {heap : Heap}
    {result : Except BeanError Unit}
    (construction : Construction request definition name start raw built)
    (asks : Asks request ((built.noted (.entered name raw)).enter name raw) asked middle)
    {sees : Asked → Heap → Prop}
    (finishing : Finishing definition name raw sees asked middle result heap) :
    Heap.Withholds start.heap heap := by
  cases finishing with
  | unresolved => exact construction.withholds_entered growing withholding asks
  | @run supply _ _ gathers ran =>
      obtain ⟨earlier, record, rfl, isNext, inside, before, withholds, extended, _⟩ :=
        construction.withholds growing withholding
      have wires : Heap.Extends (Bean.plain record).IsAt (fun event => ¬ event.IsOfRequest)
          middle.heap heap := Finishing.wires (.run gathers ran)
      obtain ⟨events, journal, finishes⟩ :=
        finish_tells middle.processors definition name (.plain record) supply middle.heap
      rw [ran] at journal finishes
      have resolved : .resolved name (.plain record) ∈ heap.journal.toList := by
        rw [journal]
        cases finishes with
        | unwritten => simp
        | wired => simp
      -- The beans that were made while the fields were resolved lie behind the bean itself.
      have entered : Heap.Extends (fun _ => False) (fun event => ∀ owner other bean,
          event = .constructed owner other bean → owner = name ∧ other = definition ∧
            bean = .plain record) earlier (built.noted (.entered name (.plain record))).heap :=
        extended.trans (.note _ (by simp))
      have asking := asks.withholds growing withholding
      have grows : (built.noted (.entered name (.plain record))).heap.Grows middle.heap :=
        asks.grows growing
      have behind : Heap.Withholds (built.noted (.entered name (.plain record))).heap heap := by
        refine asking.trans (.of_extends wires fun _ _ _ inner => inner trivial) grows wires ?_
        rintro index isLater _ ⟨other, isOther, rfl⟩
        cases isOther
        exact Nat.not_lt.2 isLater inside
      have grown : earlier.Grows (built.noted (.entered name (.plain record))).heap :=
        entered.mono (fun _ impossible => impossible.elim) fun _ _ => trivial
      have finished : earlier.Grows heap := Heap.Extends.trans (grown.trans grows)
        (Finishing.grows ⟨record, rfl, Nat.le_of_eq isNext.symm⟩ (.run gathers ran))
      refine withholds.grows ?_ before finished
      intro owner other held noted unresolved
      rcases noted.split grown.journal_isPrefix
          (grows.journal_isPrefix.trans wires.journal_isPrefix) with early | late
      · obtain ⟨rfl, _, isRaw⟩ := early.of_extends entered owner other _ rfl
        cases isRaw
        exact absurd resolved unresolved
      · obtain ⟨isNew, isInside, waits⟩ := behind owner other held late unresolved
        exact ⟨Nat.le_trans grown.size_le isNew, isInside, waits⟩

theorem Making.withholds {definition : Definition} {name : String} {start final : Container}
    {result : Except BeanError Handout}
    (making : Making request definition name start result final) :
    Heap.Withholds start.heap final.heap := by
  have constructed : ∀ {raw : Bean} {built : Container},
      Construction request definition name start raw built →
        Heap.Withholds start.heap built.heap := by
    intro raw built construction
    obtain ⟨earlier, _, _, _, _, before, withholds, extended, waits⟩ :=
      construction.withholds growing withholding
    exact withholds.grows waits before
      (extended.mono (fun _ impossible => impossible.elim) fun _ _ => trivial)
  cases making with
  | busy => exact .refl _
  | unconstructed _ asks => exact asks.withholds growing withholding
  | refused construction => exact constructed construction
  | shared construction =>
      exact (constructed construction).note (construction.grows growing).1 (by simp)
  | abandoned construction _ asks finishing =>
      exact (construction.withholds_developing growing withholding asks finishing).note
        (construction.developing growing asks finishing) (by simp)
  | finished construction _ asks finishing =>
      have grows := construction.developing growing asks finishing
      rw [finished_heap]
      exact ((construction.withholds_developing growing withholding asks finishing).note grows
        (by simp)).note (grows.trans (.note _ _)) (by simp)

theorem Answering.withholds {name : String} {start final : Container}
    {result : Except BeanError Handout}
    (answering : Answering request name start result final) :
    Heap.Withholds start.heap final.heap := by
  cases answering with
  | cached => exact Heap.Withholds.note (.refl _) (.refl _) (by simp)
  | unknown => exact .refl _
  | made _ _ making => exact making.withholds growing withholding

end Ways

/-- After a request, beans whose fields were not all resolved are as their constructors made
them. -/
theorem request_withholds (name : String) (start : Container) :
    Heap.Withholds start.heap (request name start).2.heap := by
  rw [request_apply]
  refine requestWithin_induct (motive := fun _ start _ final =>
    Heap.Withholds start.heap final.heap) ?_ ?_ _ name start
  · exact fun _ start => .refl start.heap
  · intro allowance withholding name start result final answering
    exact answering.withholds (requestWithin_grows allowance) withholding

/-- Wherever a request is made while another one is answered, beans whose fields are not all
resolved are as their constructors made them. -/
theorem Nested.withholds {name : String} {start middle : Container}
    (nested : Nested request name start middle) :
    start.heap.Grows middle.heap ∧ Heap.Withholds start.heap middle.heap := by
  cases nested with
  | constructing _ _ asks =>
      exact ⟨asks.grows request_grows, asks.withholds request_grows request_withholds⟩
  | creating _ construction _ asks =>
      exact ⟨(construction.grows request_grows).1.trans (asks.grows_entered request_grows),
        construction.withholds_entered request_grows request_withholds asks⟩

theorem Active.withholds {outermost call : Call} {count : Nat}
    (active : Active outermost count call) :
    outermost.container.heap.Grows call.container.heap ∧
      Heap.Withholds outermost.container.heap call.container.heap := by
  induction active with
  | outermost => exact ⟨.refl _, .refl _⟩
  | inner _ calls ih =>
      obtain ⟨grows, withholds⟩ := calls.nested.withholds
      exact ⟨ih.1.trans grows, ih.2.grows withholds ih.1 grows⟩

end Container
end BeanContainer
