import BeanContainer.Proofs.Heap.Turns
import BeanContainer.Proofs.Request.Growth

/-!
# Requests announce nothing

That all singletons are there, and that a bean's life ends, is told to beans between requests only.
-/

namespace BeanContainer

/-- Whether the event tells a bean that all singletons are there, or that its life ends. -/
def Event.IsAnnouncement : Event → Prop
  | .notified _ | .destroyed .. => True
  | .created _ | .constructed .. | .entered .. | .resolved .. | .wired .. | .inspected ..
  | .named .. | .acquainted .. | .before .. | .started _ | .after .. | .committed ..
  | .abandoned .. | .handedOut .. => False

theorem Event.IsTurn.not_isAnnouncement {event : Event} (isTurn : event.IsTurn) :
    ¬ event.IsAnnouncement := by
  cases event with
  | notified => exact isTurn.elim
  | destroyed => exact isTurn.elim
  | _ => exact not_false

/-- Nothing was announced between the two heaps. -/
abbrev Heap.Unannounced : Heap → Heap → Prop :=
  Heap.Extends (fun _ => True) fun event => ¬ event.IsAnnouncement

namespace Container

theorem Finishes.unannounced {sees : List Event → Heap → Prop} {chain : Chain}
    {definition : Definition} {name : String} {raw : Bean} {events : List Event}
    {result : Except BeanError Unit}
    (finishes : Finishes sees chain definition name raw events result) :
    ∀ event ∈ events, ¬ event.IsAnnouncement := by
  intro event member
  cases finishes with
  | unwritten =>
      rw [List.mem_singleton.1 member]
      exact not_false
  | wired _ turns =>
      rcases List.mem_cons.1 member with rfl | later
      · exact not_false
      · rcases List.mem_cons.1 later with rfl | isTurn
        · exact not_false
        · exact (turns.areTurns event isTurn).not_isAnnouncement

section Ways

variable {request : Request}
  (each : ∀ name start, Heap.Unannounced start.heap (request name start).2.heap)
include each

theorem Asks.unannounced {start final : Container} {asked : Asked}
    (asks : Asks request start asked final) : start.heap.Unannounced final.heap :=
  @Asks.related _ _ _ _ (fun before after => before.heap.Unannounced after.heap)
    (fun _ => .refl _) .trans each asks

theorem Construction.unannounced {definition : Definition} {name : String}
    {start built : Container} {raw : Bean}
    (construction : Construction request definition name start raw built) :
    start.heap.Unannounced built.heap := by
  cases construction with
  | intro _ asks =>
      have resolving := asks.unannounced each
      exact (resolving.trans (.create _ _ _ _ fun _ => not_false)).trans (.note _ not_false)

/-- Developing a bean announces nothing, however far it comes. -/
theorem Construction.unannounced_developing {definition : Definition} {name : String}
    {start built middle : Container} {raw : Bean} {asked : Asked} {heap : Heap}
    {result : Except BeanError Unit}
    (construction : Construction request definition name start raw built)
    (asks : Asks request ((built.noted (.entered name raw)).enter name raw) asked middle)
    {sees : Asked → Heap → Prop}
    (finishing : Finishing definition name raw sees asked middle result heap) :
    start.heap.Unannounced heap := by
  have entering : built.heap.Unannounced (built.noted (.entered name raw)).heap :=
    .note _ not_false
  have asking := asks.unannounced each
  have wiring : middle.heap.Unannounced heap := by
    refine ⟨(finishing.wires.mono (fun _ _ => trivial) fun _ => id).records, ?_⟩
    cases finishing with
    | unresolved => exact ⟨[], by simp, by simp⟩
    | @run supply _ _ _ ran =>
        obtain ⟨events, journal, finishes⟩ :=
          finish_tells middle.processors definition name raw supply middle.heap
        rw [ran] at journal
        exact ⟨events, journal, finishes.unannounced⟩
  exact ((construction.unannounced each).trans entering).trans (asking.trans wiring)

theorem Making.unannounced {definition : Definition} {name : String} {start final : Container}
    {result : Except BeanError Handout}
    (making : Making request definition name start result final) :
    start.heap.Unannounced final.heap := by
  cases making with
  | busy => exact .refl _
  | unconstructed _ asks =>
      have resolving := asks.unannounced each
      exact resolving
  | refused construction => exact construction.unannounced each
  | shared construction => exact (construction.unannounced each).trans (.note _ not_false)
  | abandoned construction _ asks finishing =>
      exact (construction.unannounced_developing each asks finishing).trans (.note _ not_false)
  | @finished raw _ _ _ heap construction _ asks finishing =>
      rw [finished_heap]
      have developing := construction.unannounced_developing each asks finishing
      have committing : heap.Unannounced (heap.note (.committed name raw)) := .note _ not_false
      exact (developing.trans committing).trans (.note _ not_false)

theorem Answering.unannounced {name : String} {start final : Container}
    {result : Except BeanError Handout}
    (answering : Answering request name start result final) :
    start.heap.Unannounced final.heap := by
  cases answering with
  | cached =>
      refine .note _ ?_
      exact not_false
  | unknown => exact .refl _
  | made _ _ making => exact making.unannounced each

end Ways

/-- No request announces anything. -/
theorem request_unannounced (name : String) (start : Container) :
    start.heap.Unannounced (request name start).2.heap := by
  rw [request_apply]
  refine requestWithin_induct (motive := fun _ start _ final =>
    start.heap.Unannounced final.heap) ?_ ?_ _ name start
  · exact fun _ start => .refl start.heap
  · intro allowance each name start result final answering
    exact answering.unannounced each

end Container
end BeanContainer
