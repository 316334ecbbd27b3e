import BeanContainer.Container.Eager
import BeanContainer.Proofs.Action

/-!
# How heaps grow

Records are never lost and keep the arguments they were made from, events are only
added to the journal, and a cell that is filled stays as it is.  What the steps of a
single bean do to a heap is described by the records whose cells they may fill and by
the kind of events they add.
-/

namespace BeanContainer

/-- Whether the event tells how far a request for a bean has come, and is not noted by
a bean, a processor or a step of its wiring. -/
def Event.IsOfRequest : Event → Prop
  | .constructed .. | .entered .. | .committed .. | .abandoned .. | .handedOut .. => True
  | .created .. | .resolved .. | .wired .. | .inspected .. | .named .. | .acquainted ..
  | .before .. | .started .. | .after .. | .notified .. | .destroyed .. => False

namespace Heap

/-- The later heap has all records and events of the earlier one.  Only cells of the
given records may have been filled, and only events of the given kind were added. -/
structure Extends (fills : Nat → Prop) (adds : Event → Prop) (before after : Heap) : Prop where
  records : ∀ index contents, before.contents[index]? = some contents →
    ∃ later, after.contents[index]? = some later ∧ later.arguments = contents.arguments ∧
      (¬ fills index → later.cells = contents.cells)
  journal : ∃ events, after.journal.toList = before.journal.toList ++ events ∧
    ∀ event ∈ events, adds event

namespace Extends

variable {fills : Nat → Prop} {adds : Event → Prop} {first second third : Heap}

theorem refl (heap : Heap) : Extends fills adds heap heap where
  records _ contents found := ⟨contents, found, rfl, fun _ => rfl⟩
  journal := ⟨[], by simp, by simp⟩

theorem trans (one : Extends fills adds first second) (two : Extends fills adds second third) :
    Extends fills adds first third where
  records index contents found := by
    obtain ⟨middle, inSecond, arguments, cells⟩ := one.records index contents found
    obtain ⟨later, inThird, argumentsLater, cellsLater⟩ := two.records index middle inSecond
    refine ⟨later, inThird, argumentsLater.trans arguments, ?_⟩
    intro untouched
    exact (cellsLater untouched).trans (cells untouched)
  journal := by
    obtain ⟨events, journal, every⟩ := one.journal
    obtain ⟨more, journalLater, everyLater⟩ := two.journal
    refine ⟨events ++ more, by rw [journalLater, journal, List.append_assoc], ?_⟩
    intro event member
    rcases List.mem_append.1 member with early | late
    · exact every event early
    · exact everyLater event late

theorem mono {fills' : Nat → Prop} {adds' : Event → Prop}
    (fewer : ∀ index, fills index → fills' index) (kinds : ∀ event, adds event → adds' event)
    (extends_ : Extends fills adds first second) : Extends fills' adds' first second where
  records index contents found := by
    obtain ⟨later, found, arguments, cells⟩ := extends_.records index contents found
    refine ⟨later, found, arguments, ?_⟩
    intro untouched
    exact cells fun filled => untouched (fewer index filled)
  journal := by
    obtain ⟨events, journal, every⟩ := extends_.journal
    exact ⟨events, journal, fun event member => kinds event (every event member)⟩

/-- Noting an event leaves the records alone. -/
theorem note (heap : Heap) {event : Event} (isAdded : adds event) :
    Extends fills adds heap (heap.note event) where
  records _ contents found := ⟨contents, found, rfl, fun _ => rfl⟩
  journal := ⟨[event], by simp [Heap.note], by simpa using isAdded⟩

/-- Changing what a record was told leaves its arguments and cells alone. -/
theorem update (heap : Heap) (record : Record) {change : Contents → Contents}
    (arguments : ∀ contents, (change contents).arguments = contents.arguments)
    (cells : ∀ contents, (change contents).cells = contents.cells) :
    Extends fills adds heap (heap.update record change) where
  records index contents found := by
    by_cases same : record.index = index
    · refine ⟨change contents, ?_, arguments contents, fun _ => cells contents⟩
      simp [Heap.update, Array.getElem?_modify, same, found]
    · refine ⟨contents, ?_, rfl, fun _ => rfl⟩
      simp [Heap.update, Array.getElem?_modify, same, found]
  journal := ⟨[], by simp [Heap.update], by simp⟩

/-- Creating a bean makes a new record. -/
theorem create (heap : Heap) (type : TypeName) (arguments : List Value)
    (cells : List (String × Value)) (isAdded : ∀ bean, adds (.created bean)) :
    Extends fills adds heap (heap.create type arguments cells).2 where
  records index contents found := by
    refine ⟨contents, ?_, rfl, fun _ => rfl⟩
    have inside : index < heap.contents.size := by
      rw [Array.getElem?_eq_some_iff] at found
      exact found.1
    simp [Heap.create, Heap.allocate, Heap.note, Array.getElem?_push, Nat.ne_of_lt inside, found]
  journal := ⟨[.created (heap.create type arguments cells).1],
    by simp [Heap.create, Heap.allocate, Heap.note], by simpa using isAdded _⟩

/-- The records of the earlier heap are records of the later one. -/
theorem size_le (extends_ : Extends fills adds first second) :
    first.contents.size ≤ second.contents.size := by
  cases size : first.contents.size with
  | zero => exact Nat.zero_le _
  | succ last =>
      have inside : last < first.contents.size := by omega
      obtain ⟨later, found, _⟩ :=
        extends_.records last first.contents[last] (Array.getElem?_eq_getElem inside)
      rw [Array.getElem?_eq_some_iff] at found
      exact found.1

/-- Events are never lost. -/
theorem mem_journal (extends_ : Extends fills adds first second) {event : Event}
    (member : event ∈ first.journal.toList) : event ∈ second.journal.toList := by
  obtain ⟨events, journal, _⟩ := extends_.journal
  rw [journal]
  exact List.mem_append_left _ member

/-- An event of another kind than those added was there before. -/
theorem mem_journal_of_not (extends_ : Extends fills adds first second) {event : Event}
    (member : event ∈ second.journal.toList) (other : ¬ adds event) :
    event ∈ first.journal.toList := by
  obtain ⟨events, journal, every⟩ := extends_.journal
  rw [journal] at member
  rcases List.mem_append.1 member with early | late
  · exact early
  · exact absurd (every event late) other

/-- No event is lost between the heaps. -/
theorem journal_isPrefix (extends_ : Extends fills adds first second) :
    first.journal.toList <+: second.journal.toList := by
  obtain ⟨events, journal, _⟩ := extends_.journal
  exact ⟨events, journal.symm⟩

/-- What happens to later records does not matter to those of the first heap. -/
theorem trans_inside {rest : Nat → Prop} (one : Extends fills (fun _ => True) first second)
    (two : Extends rest adds second third)
    (inside : ∀ index < first.contents.size, rest index → fills index) :
    Extends fills (fun _ => True) first third where
  records index contents found := by
    obtain ⟨middle, inSecond, arguments, cells⟩ := one.records index contents found
    obtain ⟨later, inThird, argumentsLater, cellsLater⟩ := two.records index middle inSecond
    refine ⟨later, inThird, argumentsLater.trans arguments, ?_⟩
    intro untouched
    have isInside := (Array.getElem?_eq_some_iff.1 found).1
    exact (cellsLater fun filled => untouched (inside index isInside filled)).trans
      (cells untouched)
  journal := by
    obtain ⟨events, journal, _⟩ := one.journal
    obtain ⟨more, journalLater, _⟩ := two.journal
    refine ⟨events ++ more, by rw [journalLater, journal, List.append_assoc], ?_⟩
    exact fun _ _ => trivial

end Extends

/-- The heap was passed on the way from one heap to another, when the journal was the given one.
Only cells of some records were filled before, and among the records that were there by then only
cells of others later. -/
structure Between (fills rest : Nat → Prop) (before after : Heap) (journal : List Event)
    (view : Heap) : Prop where
  journal_eq : view.journal.toList = journal
  reached : Extends fills (fun _ => True) before view
  goesOn : Extends rest (fun _ => True) view after

namespace Between

variable {fills rest : Nat → Prop} {first second third view : Heap} {journal : List Event}

/-- More happened before. -/
theorem later {others : Nat → Prop} (between : Between fills rest second third journal view)
    (extended : Extends others (fun _ => True) first second)
    (fewer : ∀ index, fills index → others index) : Between others rest first third journal view where
  journal_eq := between.journal_eq
  reached := extended.trans (between.reached.mono fewer fun _ => id)
  goesOn := between.goesOn

/-- More happens after, to other records or later ones. -/
theorem before {others : Nat → Prop} {adds : Event → Prop}
    (between : Between fills rest first second journal view)
    (extended : Extends others adds second third)
    (inside : ∀ index < second.contents.size, others index → rest index) :
    Between fills rest first third journal view where
  journal_eq := between.journal_eq
  reached := between.reached
  goesOn := between.goesOn.trans_inside extended fun index isInside =>
    inside index (Nat.lt_of_lt_of_le isInside between.goesOn.size_le)

theorem mono {fills' rest' : Nat → Prop} (between : Between fills rest first second journal view)
    (fewer : ∀ index, fills index → fills' index) (others : ∀ index, rest index → rest' index) :
    Between fills' rest' first second journal view where
  journal_eq := between.journal_eq
  reached := between.reached.mono fewer fun _ => id
  goesOn := between.goesOn.mono others fun _ => id

end Between

/-- The event was noted between the two heaps. -/
def Notes (before after : Heap) (event : Event) : Prop :=
  ∃ events, after.journal.toList = before.journal.toList ++ events ∧ event ∈ events

namespace Notes

variable {first second third : Heap} {event : Event}

theorem later (extended : first.journal.toList <+: second.journal.toList)
    (noted : second.Notes third event) : first.Notes third event := by
  obtain ⟨events, journal, member⟩ := noted
  obtain ⟨earlier, isEarlier⟩ := extended
  refine ⟨earlier ++ events, ?_, List.mem_append_right _ member⟩
  rw [journal, ← isEarlier, List.append_assoc]

theorem before (noted : first.Notes second event)
    (extended : second.journal.toList <+: third.journal.toList) : first.Notes third event := by
  obtain ⟨events, journal, member⟩ := noted
  obtain ⟨later, isLater⟩ := extended
  refine ⟨events ++ later, ?_, List.mem_append_left _ member⟩
  rw [← isLater, journal, List.append_assoc]

/-- What was noted in two stretches was noted in one of them. -/
theorem split (noted : first.Notes third event)
    (one : first.journal.toList <+: second.journal.toList)
    (two : second.journal.toList <+: third.journal.toList) :
    first.Notes second event ∨ second.Notes third event := by
  obtain ⟨events, journal, member⟩ := noted
  obtain ⟨early, isEarly⟩ := one
  obtain ⟨late, isLate⟩ := two
  rw [← isLate, ← isEarly, List.append_assoc, List.append_cancel_left_eq] at journal
  rw [← journal] at member
  rcases List.mem_append.1 member with inEarly | inLate
  · exact .inl ⟨early, isEarly.symm, inEarly⟩
  · exact .inr ⟨late, isLate.symm, inLate⟩

theorem note (heap : Heap) (event : Event) : heap.Notes (heap.note event) event :=
  ⟨[event], by simp [Heap.note], List.mem_singleton_self event⟩

/-- Only events of the given kind were noted. -/
theorem of_extends {fills : Nat → Prop} {adds : Event → Prop} (noted : first.Notes second event)
    (extends_ : Extends fills adds first second) : adds event := by
  obtain ⟨events, journal, every⟩ := extends_.journal
  obtain ⟨others, journalAgain, member⟩ := noted
  rw [journal, List.append_cancel_left_eq] at journalAgain
  subst journalAgain
  exact every event member

end Notes
end Heap

/-! ## The steps of a single bean -/

/-- What a step does that fills no cell and is not itself a step of a request. -/
abbrev Heap.Continues : Heap → Heap → Prop :=
  Heap.Extends (fun _ => False) fun event => ¬ event.IsOfRequest

open Running

/-- The action extends the heap, without filling cells or noting steps of requests. -/
def HeapM.Continues {α : Type} (action : HeapM α) : Prop := Moves Heap.Continues action

namespace HeapM.Continues

variable {α β : Type}

theorem bind {action : HeapM α} {next : α → HeapM β} (before : Continues action)
    (after : ∀ value, Continues (next value)) : Continues (action >>= next) :=
  Moves.bind .trans before after

theorem pure (value : α) : Continues (Pure.pure value : HeapM α) := Moves.pure .refl value

theorem throw (error : BeanError) : Continues (MonadExcept.throw error : HeapM α) :=
  Moves.throw .refl error

theorem tryCatch {action : HeapM α} {handle : BeanError → HeapM α} (before : Continues action)
    (after : ∀ error, Continues (handle error)) : Continues (MonadExcept.tryCatch action handle) :=
  Moves.tryCatch .trans before after

theorem note {event : Event} (inner : ¬ event.IsOfRequest) : Continues (HeapM.note event) :=
  fun heap => .note heap inner

theorem create (type : TypeName) (arguments : List Value) (cells : List (String × Value)) :
    Continues (HeapM.create type arguments cells) :=
  fun heap => .create heap type arguments cells fun _ => not_false

end HeapM.Continues

namespace Bean

theorem tellName_continues {bean : Bean} {name : String} {heap told : Heap}
    (done : bean.tellName name heap = some told) : heap.Continues told := by
  obtain ⟨found, _, rfl⟩ := Option.map_eq_some_iff.1 done
  refine .trans ?_ (.note _ not_false)
  split
  · exact .update heap _ (fun _ => rfl) fun _ => rfl
  · exact .refl heap

theorem giveContainer_continues {bean : Bean} {container : String} {heap told : Heap}
    (done : bean.giveContainer container heap = some told) : heap.Continues told := by
  obtain ⟨found, _, rfl⟩ := Option.map_eq_some_iff.1 done
  refine .trans ?_ (.note _ not_false)
  split
  · exact .update heap _ (fun _ => rfl) fun _ => rfl
  · exact .refl heap

theorem start_continues {bean : Bean} {heap later : Heap} {result : CallbackResult}
    (done : bean.start heap = some (result, later)) : heap.Continues later := by
  obtain ⟨found, _, equal⟩ := Option.map_eq_some_iff.1 done
  cases equal
  exact .note heap not_false

theorem notify_extends {adds : Event → Prop} (isAdded : ∀ bean, adds (.notified bean))
    {bean : Bean} {heap later : Heap} {result : CallbackResult}
    (done : bean.notify heap = some (result, later)) :
    Heap.Extends (fun _ => False) adds heap later := by
  obtain ⟨found, _, equal⟩ := Option.map_eq_some_iff.1 done
  cases equal
  exact .note heap (isAdded found.1)

theorem destroy_extends {adds : Event → Prop} (isAdded : ∀ bean name, adds (.destroyed bean name))
    {bean : Bean} {name : String} {heap later : Heap}
    (done : bean.destroy name heap = some later) :
    Heap.Extends (fun _ => False) adds heap later := by
  obtain ⟨found, _, rfl⟩ := Option.map_eq_some_iff.1 done
  exact .note heap (isAdded found.1 name)

end Bean

theorem Processor.apply_continues (processor : Processor) (pass : Pass) (name : String)
    (bean : Bean) : HeapM.Continues (processor.apply pass name bean) := by
  unfold Processor.apply
  split
  · exact .pure bean
  · refine .bind (.note ?_) fun _ => ?_
    · cases pass with
      | before => exact not_false
      | after => exact not_false
    · unfold Verdict.carryOut
      split
      · exact .pure _
      · exact .create _ _ _
      · exact .throw _

theorem Link.apply_continues (link : Link) (pass : Pass) (name : String) (bean : Bean) :
    HeapM.Continues (link.apply pass name bean) := by
  unfold Link.apply
  split
  next container =>
    refine .bind ?_ fun _ => .bind ?_ fun _ => .pure bean
    · intro heap
      cases told : bean.tellName name heap with
      | none => simpa [told] using Heap.Extends.refl heap
      | some later => simpa [told] using Bean.tellName_continues told
    · intro heap
      cases told : bean.giveContainer container heap with
      | none => simpa [told] using Heap.Extends.refl heap
      | some later => simpa [told] using Bean.giveContainer_continues told
  next => exact .pure bean
  next => exact Processor.apply_continues _ _ _ _
  next => exact Processor.apply_continues _ _ _ _

theorem Chain.pass_continues (chain : Chain) (pass : Pass) (name : String) (bean : Bean) :
    HeapM.Continues (chain.pass pass name bean) := by
  unfold Chain.pass
  generalize chain.links = links
  induction links generalizing bean with
  | nil => exact .pure bean
  | cons link links ih =>
      refine .bind ?_ fun next => ih next
      refine .tryCatch (Link.apply_continues link pass name bean) fun error => ?_
      split
      · exact .pure bean
      · exact .throw error

theorem Chain.inspect_continues (chain : Chain) (name : String) (type : TypeName) :
    HeapM.Continues (chain.inspect name type) := by
  unfold Chain.inspect
  generalize chain.links.filterMap Link.processor? = processors
  induction processors with
  | nil => exact .pure _
  | cons processor processors ih =>
      refine HeapM.Continues.bind ?_ fun _ => ih
      show HeapM.Continues (if processor.inspects then HeapM.note _ else Pure.pure ())
      split
      · exact .note not_false
      · exact .pure _

namespace Container

theorem start_continues (name : String) (bean : Bean) : HeapM.Continues (start name bean) := by
  intro heap
  unfold start
  rw [bind_apply_ok (get_apply heap)]
  cases started : bean.start heap with
  | none => exact .refl heap
  | some answer =>
      obtain ⟨result, later⟩ := answer
      have continues := Bean.start_continues started
      cases result with
      | ok _ => exact continues
      | error cause => exact continues

/-- The turns of a wired bean: of the processors that look at its definition, of the two passes
and of its callback. -/
def turns (chain : Chain) (name : String) (type : TypeName) (raw : Bean) : HeapM Unit := do
  chain.inspect name type
  let bean ← chain.pass .before name raw
  start name bean
  let _ ← chain.pass .after name bean

/-- A bean is finished by writing its fields and then giving it its turns. -/
theorem finish_eq (chain : Chain) (definition : Definition) (name : String) (raw : Bean)
    (supply : Supply) :
    finish chain definition name raw supply = (do
      HeapM.note (.resolved name raw)
      supply.wire raw definition.fields
      HeapM.note (.wired name raw)
      turns chain name definition.type raw) := rfl

/-- What holds of each turn and of actions one after the other holds of all the turns. -/
theorem turns_hold {holds : ∀ {α : Type}, HeapM α → Prop}
    (bind : ∀ {α β : Type} {action : HeapM α} {next : α → HeapM β}, holds action →
      (∀ value, holds (next value)) → holds (action >>= next))
    (done : holds (Pure.pure () : HeapM Unit)) {chain : Chain} {name : String} {type : TypeName}
    (inspects : holds (chain.inspect name type))
    (passes : ∀ pass bean, holds (chain.pass pass name bean))
    (starts : ∀ bean, holds (start name bean)) (raw : Bean) :
    holds (turns chain name type raw) := by
  apply bind inspects
  intro _
  apply bind (passes .before raw)
  intro bean
  apply bind (starts bean)
  intro _
  apply bind (passes .after bean)
  intro _
  exact done

theorem turns_continues (chain : Chain) (name : String) (type : TypeName) (raw : Bean) :
    HeapM.Continues (turns chain name type raw) :=
  @turns_hold @HeapM.Continues .bind (.pure ()) _ _ _ (chain.inspect_continues name type)
    (fun pass bean => chain.pass_continues pass name bean) (start_continues name) raw

/-- Notifying singletons adds nothing but that they were notified. -/
theorem notifyEach_extends {adds : Event → Prop} (isAdded : ∀ bean, adds (.notified bean))
    (singletons : List (String × Bean)) :
    Moves (Heap.Extends (fun _ => False) adds) (notifyEach singletons) := by
  induction singletons with
  | nil => exact .pure .refl _
  | cons entry rest ih =>
      obtain ⟨name, bean⟩ := entry
      intro heap
      unfold notifyEach
      rw [bind_apply_ok (get_apply heap)]
      cases notified : bean.notify heap with
      | none => exact ih heap
      | some answer =>
          obtain ⟨result, later⟩ := answer
          have extended := Bean.notify_extends isAdded notified
          cases result with
          | ok _ => exact extended.trans (ih later)
          | error cause => exact extended

end Container
end BeanContainer
