import BeanContainer.Proofs.Heap.Blame
import BeanContainer.Proofs.Heap.Chains

/-!
# What a pass comes to

A processor that declines leaves no trace but in the journal, which no processor reads.  So a pass
comes to the same as one through those processors alone that do not decline, each of which gets
what the one before it answered.  The first error of another kind ends the pass where it occurs,
and no step of finishing a bean ever fails with an error that only declines.
-/

namespace BeanContainer

open Running

/-! ## Heaps that differ in their journals -/

/-- The heaps hold the same beans, whatever was noted about them. -/
structure Heap.Matches (one other : Heap) : Prop where
  contents : other.contents = one.contents
  behaviours : other.behaviours = one.behaviours
  elapsed : other.elapsed = one.elapsed

namespace Heap.Matches

variable {one other third : Heap}

theorem refl (heap : Heap) : heap.Matches heap := ⟨rfl, rfl, rfl⟩

theorem symm (same : one.Matches other) : other.Matches one :=
  ⟨same.contents.symm, same.behaviours.symm, same.elapsed.symm⟩

theorem trans (same : one.Matches other) (later : other.Matches third) : one.Matches third :=
  ⟨later.contents.trans same.contents, later.behaviours.trans same.behaviours,
    later.elapsed.trans same.elapsed⟩

theorem note (event more : Event) (same : one.Matches other) :
    (one.note event).Matches (other.note more) := ⟨same.contents, same.behaviours, same.elapsed⟩

theorem update (record : Record) (change : Contents → Contents) (same : one.Matches other) :
    (one.update record change).Matches (other.update record change) :=
  ⟨congrArg (·.modify record.index change) same.contents, same.behaviours, same.elapsed⟩

theorem sameChains (same : one.Matches other) : SameChains one other :=
  .of_cells fun record => by rw [read, read, same.contents]

theorem tellName (bean : Bean) (name : String) (same : one.Matches other) :
    ((bean.tellName name one).getD one).Matches ((bean.tellName name other).getD other) := by
  rw [Bean.tellName, Bean.tellName, same.sameChains.seek]
  cases one.seek bean fun capabilities => capable capabilities.awareOfName with
  | none => exact same
  | some found =>
      obtain ⟨link, _⟩ := found
      cases link with
      | plain record => exact (same.update record _).note _ _
      | proxy type capabilities inner => exact same.note _ _

theorem giveContainer (bean : Bean) (container : String) (same : one.Matches other) :
    ((bean.giveContainer container one).getD one).Matches
      ((bean.giveContainer container other).getD other) := by
  rw [Bean.giveContainer, Bean.giveContainer, same.sameChains.seek]
  cases one.seek bean fun capabilities => capable capabilities.awareOfContainer with
  | none => exact same
  | some found =>
      obtain ⟨link, _⟩ := found
      cases link with
      | plain record => exact (same.update record _).note _ _
      | proxy type capabilities inner => exact same.note _ _

end Heap.Matches

/-- What the action does depends on nothing that was noted. -/
def HeapM.Overlooks {α : Type} (action : HeapM α) : Prop :=
  ∀ one other : Heap, one.Matches other →
    (action other).1 = (action one).1 ∧ (action one).2.Matches (action other).2

namespace HeapM.Overlooks

variable {α β : Type}

theorem pure (value : α) : Overlooks (Pure.pure value : HeapM α) :=
  fun _ _ same => ⟨rfl, same⟩

theorem throw (error : BeanError) : Overlooks (MonadExcept.throw error : HeapM α) :=
  fun _ _ same => ⟨rfl, same⟩

theorem note (event : Event) : Overlooks (HeapM.note event) :=
  fun _ _ same => ⟨rfl, same.note event event⟩

/-- The label and the place of a new bean depend on the beans before it. -/
theorem create (type : TypeName) : Overlooks (HeapM.create type) := by
  intro one other same
  simp only [HeapM.create, modifyGet_apply, Heap.create, Heap.allocate, Heap.behaviour,
    same.contents, same.behaviours, same.elapsed, true_and]
  exact ⟨rfl, rfl, rfl⟩

theorem bind {action : HeapM α} {next : α → HeapM β} (first : Overlooks action)
    (rest : ∀ value, Overlooks (next value)) : Overlooks (action >>= next) := by
  intro one other same
  obtain ⟨result, later⟩ := first one other same
  rw [bind_apply, bind_apply]
  generalize action one = left at result later ⊢
  generalize action other = right at result later ⊢
  obtain ⟨leftResult, leftHeap⟩ := left
  obtain ⟨rightResult, rightHeap⟩ := right
  cases result
  cases leftResult with
  | error error => exact ⟨rfl, later⟩
  | ok value => exact rest value leftHeap rightHeap later

end HeapM.Overlooks

theorem Processor.apply_overlooks (processor : Processor) (pass : Pass) (name : String)
    (bean : Bean) : HeapM.Overlooks (processor.apply pass name bean) := by
  rw [apply]
  cases processor.hook? pass with
  | none => exact .pure bean
  | some hook =>
      apply HeapM.Overlooks.bind (.note _)
      intro _
      cases hook name bean with
      | proceed next => exact .pure next
      | replace type => exact .create type
      | fail error => exact .throw error

/-- No link looks at the journal. -/
theorem Link.apply_overlooks (link : Link) (pass : Pass) (name : String) (bean : Bean) :
    HeapM.Overlooks (link.apply pass name bean) := by
  cases link with
  | shared processor => exact processor.apply_overlooks pass name bean
  | owned processor => exact processor.apply_overlooks pass name bean
  | awareness container =>
      cases pass with
      | after => exact .pure bean
      | before =>
          intro one other same
          exact ⟨rfl, (same.tellName bean name).giveContainer bean container⟩

/-- A link that fails leaves all beans as they were. -/
theorem Link.matches_of_error {link : Link} {pass : Pass} {name : String} {bean : Bean}
    {heap later : Heap} {error : BeanError}
    (failed : link.apply pass name bean heap = (.error error, later)) : heap.Matches later := by
  have byProcessor : ∀ processor : Processor,
      processor.apply pass name bean heap = (.error error, later) → heap.Matches later := by
    intro processor failed
    rw [Processor.apply] at failed
    cases hooked : processor.hook? pass with
    | none =>
        rw [hooked] at failed
        cases failed
    | some hook =>
        have noted : HeapM.note (processor.event pass name bean) heap =
            (.ok ⟨⟩, heap.note (processor.event pass name bean)) := rfl
        rw [hooked] at failed
        simp only [bind_apply_ok noted] at failed
        cases answer : hook name bean with
        | proceed next =>
            rw [answer] at failed
            cases failed
        | replace type =>
            rw [answer] at failed
            cases failed
        | fail fault =>
            rw [answer] at failed
            cases failed
            exact ⟨rfl, rfl, rfl⟩
  cases link with
  | shared processor => exact byProcessor processor failed
  | owned processor => exact byProcessor processor failed
  | awareness container =>
      cases pass with
      | before => cases failed
      | after => cases failed

/-! ## Passes through the links that do not decline -/

namespace Chain

/-- The links have their turns one after the other, each with what the one before it answered. -/
def applyEach (pass : Pass) (name : String) (links : List Link) (bean : Bean) : HeapM Bean :=
  links.foldlM (fun bean link => link.apply pass name bean) bean

/-- The links that are called in a pass and do not decline. -/
def concernedLinks (pass : Pass) (name : String) : List Link → Bean → Heap → List Link
  | [], _, _ => []
  | link :: links, bean, heap =>
      match link.apply pass name bean heap with
      | (.ok next, later) => link :: concernedLinks pass name links next later
      | (.error error, later) =>
          if error.isDeclined then concernedLinks pass name links bean later else [link]

/-- The links of the chain that are called in a pass and do not decline. -/
def concerned (chain : Chain) (pass : Pass) (name : String) (bean : Bean) (heap : Heap) :
    List Link :=
  concernedLinks pass name chain.links bean heap

section Passes

variable {pass : Pass} {name : String}

theorem concernedLinks_sublist (links : List Link) (bean : Bean) (heap : Heap) :
    (concernedLinks pass name links bean heap).Sublist links := by
  induction links generalizing bean heap with
  | nil => exact .slnil
  | cons link links ih =>
      rw [concernedLinks]
      split
      next next later _ => exact (ih next later).cons_cons link
      next error later _ =>
        split
        next => exact (ih bean later).cons link
        next => exact (List.nil_sublist links).cons_cons link

/-- A turn in a pass: a link that declines leaves the bean as it was. -/
theorem passLinks_cons (link : Link) (links : List Link) (bean : Bean) (heap : Heap) :
    passLinks pass name (link :: links) bean heap =
      match link.apply pass name bean heap with
      | (.ok next, later) => passLinks pass name links next later
      | (.error error, later) =>
          if error.isDeclined then passLinks pass name links bean later
          else (.error error, later) := by
  rw [passLinks, bind_apply, tryCatch_apply]
  rcases link.apply pass name bean heap with ⟨result, later⟩
  cases result with
  | ok next => rfl
  | error error =>
      cases declined : error.isDeclined with
      | true => simp [declined]
      | false => simp [declined]

/-- A pass comes to the same as one through the links that do not decline. -/
theorem passLinks_concerned (links : List Link) (bean : Bean) {one other : Heap}
    (same : one.Matches other) :
    (passLinks pass name links bean one).1 =
        (applyEach pass name (concernedLinks pass name links bean one) bean other).1 ∧
      (passLinks pass name links bean one).2.Matches
        (applyEach pass name (concernedLinks pass name links bean one) bean other).2 := by
  induction links generalizing bean one other with
  | nil => exact ⟨rfl, same⟩
  | cons link links ih =>
      have overlooks := link.apply_overlooks pass name bean one other same
      rw [passLinks_cons, concernedLinks]
      rcases turn : link.apply pass name bean one with ⟨result, later⟩
      rcases otherwise : link.apply pass name bean other with ⟨otherResult, otherLater⟩
      rw [turn, otherwise] at overlooks
      obtain ⟨sameResult, sameLater⟩ := overlooks
      cases sameResult
      cases result with
      | ok next =>
          simp only [applyEach, List.foldlM_cons, bind_apply_ok otherwise]
          exact ih next sameLater
      | error error =>
          cases declined : error.isDeclined with
          | true =>
              -- What was noted about the refusal is all that has changed.
              have unchanged := Link.matches_of_error turn
              simp only [declined, if_true]
              exact ih bean (unchanged.symm.trans same)
          | false =>
              simp only [declined, Bool.false_eq_true, if_false, applyEach, List.foldlM_cons,
                bind_apply_error otherwise]
              exact ⟨trivial, sameLater⟩

/-- A pass that fails ends in the turn of the first link that fails and does not decline. -/
theorem passLinks_fails {links : List Link} {bean : Bean} {heap final : Heap} {error : BeanError}
    (failed : passLinks pass name links bean heap = (.error error, final)) :
    error.isDeclined = false ∧ ∃ front link back before middle, links = front ++ link :: back ∧
      passLinks pass name front bean heap = (.ok before, middle) ∧
      link.apply pass name before middle = (.error error, final) := by
  induction links generalizing bean heap with
  | nil => cases failed
  | cons link links ih =>
      -- If the bean goes on, a later link fails, and the turn of this one belongs to the front.
      have goesOn : ∀ next later, passLinks pass name links next later = (.error error, final) →
          (∀ front, passLinks pass name (link :: front) bean heap =
            passLinks pass name front next later) →
          error.isDeclined = false ∧ ∃ front other back before middle,
            link :: links = front ++ other :: back ∧
            passLinks pass name front bean heap = (.ok before, middle) ∧
            other.apply pass name before middle = (.error error, final) := by
        intro next later failedLater turn
        obtain ⟨severe, front, other, back, before, middle, split, passed, fails⟩ := ih failedLater
        refine ⟨severe, link :: front, other, back, before, middle, ?_, ?_, fails⟩
        · rw [split, List.cons_append]
        · rw [turn, passed]
      have turned : ∀ front, passLinks pass name (link :: front) bean heap = _ :=
        fun front => passLinks_cons link front bean heap
      rw [passLinks_cons] at failed
      rcases turn : link.apply pass name bean heap with ⟨result, later⟩
      simp only [turn] at failed turned
      cases result with
      | ok next => exact goesOn next later failed turned
      | error fault =>
          cases declined : fault.isDeclined with
          | true =>
              simp only [declined, if_true] at failed turned
              exact goesOn bean later failed turned
          | false =>
              simp only [declined, Bool.false_eq_true, if_false] at failed
              cases failed
              exact ⟨declined, [], link, links, bean, heap, rfl, rfl, turn⟩

end Passes
end Chain

/-! ## Steps that never decline -/

/-- The action fails with no error that only says that nothing applies. -/
def HeapM.Applies {α : Type} (action : HeapM α) : Prop :=
  ∀ heap error, (action heap).1 = .error error → error.isDeclined = false

namespace HeapM.Applies

variable {α β : Type}

theorem of_ok {action : HeapM α} (succeeds : ∀ heap, ∃ value, (action heap).1 = .ok value) :
    Applies action := by
  intro heap error failed
  obtain ⟨value, succeeded⟩ := succeeds heap
  rw [succeeded] at failed
  cases failed

theorem bind {action : HeapM α} {next : α → HeapM β} (first : Applies action)
    (rest : ∀ value, Applies (next value)) : Applies (action >>= next) := by
  intro heap error failed
  have applies := first heap error
  rw [bind_apply] at failed
  generalize action heap = outcome at applies failed
  obtain ⟨result, middle⟩ := outcome
  cases result with
  | error fault =>
      cases failed
      exact applies rfl
  | ok value => exact rest value middle error failed

end HeapM.Applies

theorem Chain.pass_applies (chain : Chain) (pass : Pass) (name : String) (bean : Bean) :
    HeapM.Applies (chain.pass pass name bean) := by
  intro heap error failed
  have ended : chain.pass pass name bean heap = (.error error, (chain.pass pass name bean heap).2) :=
    Prod.ext failed rfl
  exact (passLinks_fails ended).1

namespace Container

/-- Finishing a bean never fails with an error that only says that nothing applies. -/
theorem finish_applies (chain : Chain) (definition : Definition) (name : String) (raw : Bean)
    (supply : Supply) : HeapM.Applies (finish chain definition name raw supply) := by
  have noted : ∀ event, HeapM.Applies (HeapM.note event) :=
    fun event => .of_ok fun _ => ⟨⟨⟩, rfl⟩
  have wires : HeapM.Applies (supply.wire raw definition.fields) := by
    intro heap error failed
    rw [BeanError.isDeclined, supply.write_kind raw definition.fields heap failed]
    rfl
  have starts : ∀ bean, HeapM.Applies (start name bean) := by
    intro bean heap error failed
    obtain ⟨cause, isError⟩ := start_fails failed
    rw [isError]
    rfl
  have inspects : HeapM.Applies (chain.inspect name definition.type) :=
    .of_ok fun heap => ⟨_, chain.inspect_ok name definition.type heap⟩
  rw [finish_eq]
  apply (noted _).bind
  intro _
  apply wires.bind
  intro _
  apply (noted _).bind
  intro _
  exact @turns_hold @HeapM.Applies .bind (.of_ok fun _ => ⟨⟨⟩, rfl⟩) chain name definition.type
    inspects (fun pass bean => chain.pass_applies pass name bean) starts raw

end Container
end BeanContainer
