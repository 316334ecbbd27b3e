import BeanContainer.Proofs.Heap.Wiring

/-!
# Which errors processors bring in

Writing fields and running the callback of a bean fail in ways of their own.  Finishing a
bean reports a cycle only if a processor answered so, in a turn that the journal shows.
-/

namespace BeanContainer

/-- A processor of the chain answered with the error, in a turn that was noted between the
two heaps. -/
def Chain.Answered (chain : Chain) (error : BeanError) (before after : Heap) : Prop :=
  ∃ processor ∈ chain.links.filterMap Link.processor?, ∃ pass hook name bean,
    processor.hook? pass = some hook ∧ hook name bean = .fail error ∧
      before.Notes after (processor.event pass name bean)

namespace Chain.Answered

variable {chain : Chain} {error : BeanError} {first second third : Heap}

theorem later (extended : first.journal.toList <+: second.journal.toList)
    (answered : chain.Answered error second third) : chain.Answered error first third := by
  obtain ⟨processor, isLink, pass, hook, name, bean, isHook, fails, noted⟩ := answered
  exact ⟨processor, isLink, pass, hook, name, bean, isHook, fails, noted.later extended⟩

theorem before (answered : chain.Answered error first second)
    (extended : second.journal.toList <+: third.journal.toList) :
    chain.Answered error first third := by
  obtain ⟨processor, isLink, pass, hook, name, bean, isHook, fails, noted⟩ := answered
  exact ⟨processor, isLink, pass, hook, name, bean, isHook, fails, noted.before extended⟩

end Chain.Answered

open Running

/-- The action loses no event, and fails with the error only by the answer of a processor. -/
def HeapM.Blames {α : Type} (chain : Chain) (error : BeanError) (action : HeapM α) : Prop :=
  ∀ heap, heap.journal.toList <+: (action heap).2.journal.toList ∧
    ((action heap).1 = .error error → chain.Answered error heap (action heap).2)

namespace HeapM.Blames

variable {α β : Type} {chain : Chain} {error : BeanError}

/-- An action that never fails with the error. -/
theorem of_ne {action : HeapM α} (extended : ∀ heap, heap.journal.toList <+:
      (action heap).2.journal.toList) (differs : ∀ heap, (action heap).1 ≠ .error error) :
    Blames chain error action :=
  fun heap => ⟨extended heap, fun failed => absurd failed (differs heap)⟩

theorem of_continues {action : HeapM α} (continues : action.Continues)
    (differs : ∀ heap, (action heap).1 ≠ .error error) : Blames chain error action :=
  of_ne (fun heap => (continues heap).journal_isPrefix) differs

theorem bind {action : HeapM α} {next : α → HeapM β} (first : Blames chain error action)
    (rest : ∀ value, Blames chain error (next value)) :
    Blames chain error (action >>= next) := by
  intro heap
  obtain ⟨extended, blamed⟩ := first heap
  rw [bind_apply]
  generalize action heap = outcome at extended blamed ⊢
  obtain ⟨result, middle⟩ := outcome
  cases result with
  | error other =>
      refine ⟨extended, ?_⟩
      intro failed
      cases failed
      exact blamed rfl
  | ok value =>
      obtain ⟨extendedLater, blamedLater⟩ := rest value middle
      exact ⟨extended.trans extendedLater, fun failed => (blamedLater failed).later extended⟩

end HeapM.Blames

/-- A processor of the chain is to blame for the error of its turn. -/
theorem Processor.apply_blames {chain : Chain} {error : BeanError} {processor : Processor}
    (isLink : processor ∈ chain.links.filterMap Link.processor?) (pass : Pass) (name : String)
    (bean : Bean) : HeapM.Blames chain error (processor.apply pass name bean) := by
  intro heap
  refine ⟨(processor.apply_continues pass name bean heap).journal_isPrefix, ?_⟩
  unfold Processor.apply
  cases isHook : processor.hook? pass with
  | none => simp
  | some hook =>
      simp only [HeapM.note, bind_apply, modify_apply]
      cases verdict : hook name bean with
      | proceed next => simp [Verdict.carryOut]
      | replace type => simp [Verdict.carryOut, HeapM.create]
      | fail other =>
          intro failed
          cases failed
          exact ⟨processor, isLink, pass, hook, name, bean, isHook, verdict, .note heap _⟩

theorem Link.apply_blames {chain : Chain} {error : BeanError} {link : Link}
    (isLink : link ∈ chain.links) (pass : Pass) (name : String) (bean : Bean) :
    HeapM.Blames chain error (link.apply pass name bean) := by
  have isProcessor : ∀ processor, link.processor? = some processor →
      processor ∈ chain.links.filterMap Link.processor? :=
    fun processor found => List.mem_filterMap.2 ⟨link, isLink, found⟩
  cases link with
  | awareness container =>
      refine .of_continues (Link.apply_continues _ pass name bean) fun heap => ?_
      cases pass with
      | before => simp [Link.apply, bind_apply, map_apply, Except.map]
      | after => simp [Link.apply]
  | shared processor => exact processor.apply_blames (isProcessor processor rfl) pass name bean
  | owned processor => exact processor.apply_blames (isProcessor processor rfl) pass name bean

theorem Chain.pass_blames (chain : Chain) {error : BeanError} (pass : Pass) (name : String)
    (bean : Bean) : HeapM.Blames chain error (chain.pass pass name bean) := by
  have blames : ∀ links, (∀ link ∈ links, link ∈ chain.links) → ∀ bean,
      HeapM.Blames chain error (passLinks pass name links bean) := by
    intro links areLinks
    induction links with
    | nil => exact fun bean => .of_continues (.pure bean) fun heap => nofun
    | cons link links ih =>
        intro bean
        refine .bind ?_ (ih fun other member => areLinks other (List.mem_cons_of_mem _ member))
        intro heap
        have turn : HeapM.Blames chain error (link.apply pass name bean) :=
          Link.apply_blames (areLinks link List.mem_cons_self) pass name bean
        obtain ⟨extended, blamed⟩ := turn heap
        rw [tryCatch_apply]
        generalize link.apply pass name bean heap = outcome at extended blamed ⊢
        obtain ⟨result, middle⟩ := outcome
        cases result with
        | ok next => exact ⟨extended, nofun⟩
        | error other =>
            simp only []
            split
            next => exact ⟨extended, nofun⟩
            next => exact ⟨extended, blamed⟩
  exact blames chain.links (fun _ => id) bean

/-- Looking at definitions never fails. -/
theorem Chain.inspect_ok (chain : Chain) (name : String) (type : TypeName) (heap : Heap) :
    (chain.inspect name type heap).1 = .ok () := by
  unfold Chain.inspect
  generalize chain.links.filterMap Link.processor? = processors
  induction processors generalizing heap with
  | nil => rfl
  | cons processor processors ih =>
      have turn : ∀ (next : Unit → HeapM Unit), (∀ heap, (next () heap).1 = .ok ()) →
          (((if processor.inspects then HeapM.note (.inspected processor.id name type)
            else pure ()) >>= next) heap).1 = .ok () := by
        intro next proceeds
        split
        · exact proceeds _
        · exact proceeds heap
      exact turn _ ih

/-- A field that cannot be written is reported as invalid. -/
theorem InjectionPoint.write_kind (point : InjectionPoint) (target : Bean) (value : Value)
    (heap : Heap) {error : BeanError} (failed : point.write target value heap = .error error) :
    error.kind = .invalid := by
  unfold InjectionPoint.write at failed
  split at failed
  · cases failed
    rfl
  · split at failed
    · cases failed
      rfl
    · split at failed
      · cases failed
        rfl
      · split at failed
        · cases failed
          rfl
        · split at failed
          · cases failed
          · cases failed
            rfl

/-- Fields that cannot be written are reported as invalid. -/
theorem Supply.write_kind (target : Bean) (points : List InjectionPoint) (supply : Supply)
    (heap : Heap) {error : BeanError} (failed : (supply.write target points heap).1 = .error error) :
    error.kind = .invalid := by
  induction points generalizing supply heap with
  | nil => cases failed
  | cons point points ih =>
      unfold Supply.write at failed
      split at failed
      · exact ih supply heap failed
      next value _ =>
        cases done : point.write target value heap with
        | ok written =>
            rw [done] at failed
            exact ih _ written failed
        | error fault =>
            rw [done] at failed
            cases failed
            exact point.write_kind target value heap done

namespace Container

/-- The callback of a bean fails in one way only. -/
theorem start_fails {name : String} {bean : Bean} {heap : Heap} {error : BeanError}
    (failed : (start name bean heap).1 = .error error) :
    ∃ cause, error = .lifecycle name "after_properties_set" cause := by
  unfold start at failed
  rw [bind_apply_ok (get_apply heap)] at failed
  cases started : bean.start heap with
  | none =>
      rw [started] at failed
      cases failed
  | some answer =>
      obtain ⟨result, later⟩ := answer
      rw [started] at failed
      cases result with
      | ok _ => cases failed
      | error cause =>
          cases failed
          exact ⟨cause, rfl⟩

/-- The turns of a wired bean fail by the answer of a processor, or in the callback. -/
theorem turns_blames {chain : Chain} {name : String} {error : BeanError}
    (alive : ∀ cause, error ≠ .lifecycle name "after_properties_set" cause) (type : TypeName)
    (raw : Bean) : HeapM.Blames chain error (turns chain name type raw) := by
  have inspects : HeapM.Blames chain error (chain.inspect name type) := by
    refine .of_continues (chain.inspect_continues name type) fun heap => ?_
    rw [chain.inspect_ok]
    nofun
  have starts : ∀ bean, HeapM.Blames chain error (start name bean) := by
    intro bean
    refine .of_continues (start_continues name bean) fun heap failed => ?_
    obtain ⟨cause, isError⟩ := start_fails failed
    exact alive cause isError
  exact @turns_hold (HeapM.Blames chain error) .bind (.of_continues (.pure ()) fun _ => nofun)
    chain name type inspects (fun pass bean => chain.pass_blames pass name bean) starts raw

/-- Finishing a bean fails because a field cannot be written, by the answer of a processor, or in
the callback of the bean. -/
theorem finish_fails {chain : Chain} {definition : Definition} {name : String} {raw : Bean}
    {supply : Supply} {heap final : Heap} {error : BeanError}
    (ran : finish chain definition name raw supply heap = (.error error, final)) :
    (∃ left written, supply.write raw definition.fields (heap.note (.resolved name raw)) =
      (.error error, left, written)) ∨
    chain.Answered error heap final ∨
    ∃ cause, error = .lifecycle name "after_properties_set" cause := by
  by_cases alive : ∀ cause, error ≠ .lifecycle name "after_properties_set" cause
  · have rest : HeapM.Blames chain error (do
        HeapM.note (.wired name raw)
        turns chain name definition.type raw) :=
      .bind (.of_continues (.note not_false) fun _ => nofun) fun _ =>
        turns_blames alive definition.type raw
    have noted : HeapM.note (.resolved name raw) heap = (.ok (), heap.note (.resolved name raw)) :=
      rfl
    rw [finish_eq, bind_apply_ok noted, bind_apply, Supply.wire_apply] at ran
    have wires := Supply.write_wires raw definition.fields supply (heap.note (.resolved name raw))
    rcases outcome : supply.write raw definition.fields (heap.note (.resolved name raw)) with
      ⟨result, left, written⟩
    rw [outcome] at ran wires
    cases result with
    | error fault =>
        have isError : fault = error := Except.error.inj (congrArg Prod.fst ran)
        subst isError
        exact .inl ⟨left, written, rfl⟩
    | ok _ =>
        simp only [] at ran
        obtain ⟨_, blamed⟩ := rest written
        rw [ran] at blamed
        have answered := blamed rfl
        have resolved : heap.Continues (heap.note (.resolved name raw)) := .note _ not_false
        exact .inr (.inl ((answered.later wires.grows.journal_isPrefix).later
          resolved.journal_isPrefix))
  · obtain ⟨cause, isLifecycle⟩ := Classical.not_forall.1 alive
    exact .inr (.inr ⟨cause, Decidable.not_not.1 isLifecycle⟩)

/-- Finishing a bean reports a cycle only if a processor does. -/
theorem finish_circular {chain : Chain} {definition : Definition} {name other : String} {raw : Bean}
    {supply : Supply} {heap final : Heap}
    (ran : finish chain definition name raw supply heap = (.error (.circular other), final)) :
    chain.Answered (.circular other) heap final := by
  rcases finish_fails ran with unwritten | answered | unstarted
  · obtain ⟨left, written, failed⟩ := unwritten
    cases supply.write_kind raw definition.fields _ (congrArg Prod.fst failed)
  · exact answered
  · obtain ⟨cause, isError⟩ := unstarted
    cases isError

end Container
end BeanContainer
