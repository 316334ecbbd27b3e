import BeanContainer.Proofs.Heap.Passes
import BeanContainer.Proofs.Request.Failures
import BeanContainer.Proofs.Run.Processors

/-!
# How processors take their turns

The chain of a container holds its processors where they were last added, and a pass comes to
what those of them make of the bean that do not decline.  That a processor declines is never the
reason for which a request fails: such an error is caught in the pass, and nothing else that a
request does fails with one.
-/

namespace BeanContainer
namespace Container

section Ways

variable {request : Request}
  (inner : ∀ name start error, (request name start).1 = .error error → error.isDeclined = false)
include inner

/-- Points that are not resolved fail with no error that only declines. -/
theorem Gathers.applies {registry : Registry} {properties : PropertyStore}
    {sees : Asked → Heap → Prop} {points : List InjectionPoint} {asked : Asked} {error : BeanError}
    {start final : Container} (asks : Asks request start asked final)
    (gathers : Gathers registry properties sees points .empty asked (.error error)) :
    error.isDeclined = false := by
  obtain ⟨point, _, fault⟩ := gathers.fails
  cases fault with
  | @unread _ _ error _ _ =>
      rw [BeanError.isDeclined, BeanError.kind]
      cases error.isNotFound with
      | true => rfl
      | false => rfl
  | undecided names =>
      rw [BeanError.isDeclined]
      rcases point.names_kind names with absent | several
      · rw [absent]
        rfl
      · rw [several]
        rfl
  | unfit => rfl
  | @failed name _ member =>
      obtain ⟨_, middle, _, _, _, _, isAnswer, _⟩ := asks.split member
      exact inner name middle error (congrArg Prod.fst isAnswer)

/-- A bean that cannot be made is reported with no error that only declines. -/
theorem Making.applies {definition : Definition} {name : String} {start final : Container}
    {error : BeanError} (making : Making request definition name start (.error error) final) :
    error.isDeclined = false := by
  cases making with
  | busy => rfl
  | unconstructed _ asks spoiled =>
      cases spoiled with
      | unresolved gathers => exact gathers.applies inner asks
      | refused => rfl
  | refused => rfl
  | @abandoned raw _ middle _ heap _ _ _ asks finishing =>
      cases finishing with
      | unresolved gathers => exact gathers.applies inner asks
      | @run supply _ _ _ ran =>
          apply finish_applies middle.processors definition name raw supply middle.heap error
          rw [ran]

theorem Answering.applies {name : String} {start final : Container} {error : BeanError}
    (answering : Answering request name start (.error error) final) :
    error.isDeclined = false := by
  cases answering with
  | unknown => rfl
  | made _ _ making => exact making.applies inner

end Ways

/-- No request fails with an error that only says that nothing applies. -/
theorem request_applies {name : String} {start : Container} {error : BeanError}
    (failed : (request name start).1 = .error error) : error.isDeclined = false := by
  rw [request_apply] at failed
  refine requestWithin_induct (motive := fun _ _ result _ => ∀ error, result = .error error →
    error.isDeclined = false) ?_ ?_ _ name start error failed
  · intro name start error tooDeep
    cases tooDeep
    rfl
  · intro allowance inner name start result final answering error isError
    subst isError
    exact answering.applies inner

/-- The same holds if the bean is wanted as one of its types. -/
theorem requestAs_applies {name : String} {target : TypeName} {start : Container}
    {error : BeanError} (failed : (requestAs name target start).1 = .error error) :
    error.isDeclined = false := by
  rw [requestAs, Running.bind_apply] at failed
  rcases outcome : request name start with ⟨result, middle⟩
  rw [outcome] at failed
  cases result with
  | error fault =>
      cases failed
      exact request_applies (congrArg Prod.fst outcome)
  | ok handout =>
      simp only [] at failed
      cases cast : handout.casts.cast? handout.bean target with
      | some value =>
          rw [cast] at failed
          cases failed
      | none =>
          rw [cast] at failed
          cases failed
          rfl

/-- Processors take their turns in the order in which they were last added.  A chain holds each
shared processor once, where it was last added, and in a container the built-in processor stays
the first.  A pass comes to what the links that do not decline make of the bean, each of what the
one before it answered.  It fails only in the turn of a link that fails with an error of another
kind, which ends it.  So no request fails with an error that only says that nothing applies. -/
theorem processors_take_turns :
    (∀ initial added : List Processor,
      (added.foldl Chain.add (Chain.ofList initial)).links =
          Link.latest ((initial ++ added).map .shared) ∧
        (added.foldl Chain.add (Chain.ofList initial)).ids =
          ((initial ++ added).map (·.id)).dedup) ∧
    (∀ (properties : PropertyStore) (operations : List Operation),
      ((new properties).run operations).processors.links =
        .awareness busyText :: Link.latest (operations.filterMap Operation.addition?)) ∧
    (∀ (chain : Chain) (pass : Pass) (name : String) (bean : Bean) (heap : Heap),
      (chain.concerned pass name bean heap).Sublist chain.links ∧
      (chain.pass pass name bean heap).1 =
        (Chain.applyEach pass name (chain.concerned pass name bean heap) bean heap).1 ∧
      (chain.pass pass name bean heap).2.Matches
        (Chain.applyEach pass name (chain.concerned pass name bean heap) bean heap).2 ∧
      ∀ error final, chain.pass pass name bean heap = (.error error, final) →
        error.isDeclined = false ∧ ∃ front link back before middle,
          chain.links = front ++ link :: back ∧
          Chain.passLinks pass name front bean heap = (.ok before, middle) ∧
          link.apply pass name before middle = (.error error, final)) ∧
    ∀ (start : Container) (name : String) (error : BeanError),
      ((request name start).1 = .error error → error.isDeclined = false) ∧
      ∀ target, (requestAs name target start).1 = .error error → error.isDeclined = false := by
  refine ⟨?_, run_links, ?_, ?_⟩
  · intro initial added
    have links := Chain.links_ofList initial added
    have ids := Chain.ids_latest (initial ++ added)
    rw [← links] at ids
    exact ⟨links, ids⟩
  · intro chain pass name bean heap
    obtain ⟨sameResult, sameHeap⟩ :=
      @Chain.passLinks_concerned pass name chain.links bean heap heap (.refl heap)
    refine ⟨Chain.concernedLinks_sublist _ _ _, sameResult, sameHeap, ?_⟩
    intro error final failed
    exact Chain.passLinks_fails failed
  · intro start name error
    exact ⟨request_applies, fun target => requestAs_applies⟩

end Container
end BeanContainer
