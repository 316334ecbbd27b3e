import BeanContainer.Proofs.Heap.Chains
import BeanContainer.Proofs.Heap.Wiring

/-!
# The turns of a new bean

Finishing a bean runs through one fixed course of events.  Its fields are written, the processors
that look at definitions see its definition, each link of the chain has a turn with what the one
before it answered, the callback of the resulting bean runs, and each link has a second turn.  A
failure ends the course where it happens, so the events up to there are always a first part of
it.
-/

namespace BeanContainer

open Running

/-! ## The events of an action -/

/-- From whatever heap in which records stand in for the same beans as in the view, the action adds
events to the journal that go with its result as told, and records go on to stand in for the
same beans. -/
def HeapM.Tells {α : Type} (view : Heap) (story : List Event → Except BeanError α → Prop)
    (action : HeapM α) : Prop :=
  ∀ heap, view.SameChains heap → view.SameChains (action heap).2 ∧ ∃ events,
    (action heap).2.journal.toList = heap.journal.toList ++ events ∧ story events (action heap).1

namespace HeapM.Tells

variable {α β : Type} {view : Heap} {story : List Event → Except BeanError α → Prop}

theorem pure {value : α} (tells : story [] (.ok value)) :
    Tells view story (Pure.pure value : HeapM α) :=
  fun _ same => ⟨same, [], by simp, tells⟩

theorem throw {error : BeanError} (tells : story [] (.error error)) :
    Tells view story (MonadExcept.throw error : HeapM α) :=
  fun _ same => ⟨same, [], by simp, tells⟩

theorem note (event : Event) :
    Tells view (fun events result => events = [event] ∧ result = .ok ()) (HeapM.note event) :=
  fun heap same => ⟨same.trans (.note heap event), [event], Array.toList_push, rfl, rfl⟩

/-- A new bean is of the type that is asked for. -/
theorem create (type : TypeName) :
    Tells view (fun events result => ∃ bean : Bean, bean.type = type ∧ events = [.created bean] ∧
      result = .ok bean) (HeapM.create type) :=
  fun heap same =>
    ⟨same.trans (.create heap type []), [.created _], Array.toList_push, _, rfl, rfl, rfl⟩

theorem mono {other : List Event → Except BeanError α → Prop} {action : HeapM α}
    (implies : ∀ events result, story events result → other events result)
    (tells : Tells view story action) : Tells view other action := by
  intro heap same
  obtain ⟨still, events, journal, told⟩ := tells heap same
  exact ⟨still, events, journal, implies events _ told⟩

/-- The second action tells its story after that of the first, unless the first one fails. -/
theorem bind {whole : List Event → Except BeanError β → Prop} {action : HeapM α}
    {next : α → HeapM β} (first : Tells view story action)
    (fails : ∀ events error, story events (.error error) → whole events (.error error))
    (rest : ∀ events value, story events (.ok value) →
      Tells view (fun later result => whole (events ++ later) result) (next value)) :
    Tells view whole (action >>= next) := by
  intro heap same
  obtain ⟨still, events, journal, told⟩ := first heap same
  rw [bind_apply]
  generalize action heap = outcome at still journal told ⊢
  obtain ⟨result, middle⟩ := outcome
  cases result with
  | error error => exact ⟨still, events, journal, fails events error told⟩
  | ok value =>
      obtain ⟨after, later, journalLater, toldLater⟩ := rest events value told middle still
      refine ⟨after, events ++ later, ?_, toldLater⟩
      rw [journalLater, journal, List.append_assoc]

/-- A handler goes on where the failed action stopped. -/
theorem tryCatch {whole : List Event → Except BeanError α → Prop} {action : HeapM α}
    {handle : BeanError → HeapM α} (first : Tells view story action)
    (succeeds : ∀ events value, story events (.ok value) → whole events (.ok value))
    (rest : ∀ events error, story events (.error error) →
      Tells view (fun later result => whole (events ++ later) result) (handle error)) :
    Tells view whole (MonadExcept.tryCatch action handle) := by
  intro heap same
  obtain ⟨still, events, journal, told⟩ := first heap same
  rw [tryCatch_apply]
  generalize action heap = outcome at still journal told ⊢
  obtain ⟨result, middle⟩ := outcome
  cases result with
  | ok value => exact ⟨still, events, journal, succeeds events value told⟩
  | error error =>
      obtain ⟨after, later, journalLater, toldLater⟩ := rest events error told middle still
      refine ⟨after, events ++ later, ?_, toldLater⟩
      rw [journalLater, journal, List.append_assoc]

end HeapM.Tells

/-! ## One turn -/

namespace Bean

/-- What the built-in processor tells the bean: its name first, then its container. -/
def tellings (bean : Bean) (view : Heap) (name container : String) : List Event :=
  ((view.seek bean fun capabilities => capable capabilities.awareOfName).map
      fun found => Event.named found.1 name).toList ++
    ((view.seek bean fun capabilities => capable capabilities.awareOfContainer).map
      fun found => Event.acquainted found.1 container).toList

/-- The run of the callback, on the first bean along the chain that has one. -/
def startings (bean : Bean) (view : Heap) : List Event :=
  ((view.seek bean (·.onWired)).map fun found => Event.started found.1).toList

/-- The callback of the bean, if there is one, does not fail. -/
def StartsWell (bean : Bean) (view : Heap) : Prop :=
  ∀ link result, view.seek bean (·.onWired) = some (link, result) → result = .ok ()

theorem StartsWell.of_sameChains {bean : Bean} {one other : Heap} (starts : bean.StartsWell one)
    (same : one.SameChains other) : bean.StartsWell other := by
  intro link result found
  rw [same.seek] at found
  exact starts link result found

theorem tellName_tells (bean : Bean) (name : String) (heap : Heap) :
    heap.SameChains ((bean.tellName name heap).getD heap) ∧
      ((bean.tellName name heap).getD heap).journal.toList = heap.journal.toList ++
        ((heap.seek bean fun capabilities => capable capabilities.awareOfName).map
          fun found => Event.named found.1 name).toList := by
  unfold tellName
  cases heap.seek bean fun capabilities => capable capabilities.awareOfName with
  | none => exact ⟨.refl heap, by simp⟩
  | some found =>
      obtain ⟨link, _⟩ := found
      cases link with
      | plain record =>
          refine ⟨.trans (.update heap record ?_) (.note _ _), Array.toList_push⟩
          exact fun _ => rfl
      | proxy type capabilities inner => exact ⟨.note heap _, Array.toList_push⟩

theorem giveContainer_tells (bean : Bean) (container : String) (heap : Heap) :
    heap.SameChains ((bean.giveContainer container heap).getD heap) ∧
      ((bean.giveContainer container heap).getD heap).journal.toList = heap.journal.toList ++
        ((heap.seek bean fun capabilities => capable capabilities.awareOfContainer).map
          fun found => Event.acquainted found.1 container).toList := by
  unfold giveContainer
  cases heap.seek bean fun capabilities => capable capabilities.awareOfContainer with
  | none => exact ⟨.refl heap, by simp⟩
  | some found =>
      obtain ⟨link, _⟩ := found
      cases link with
      | plain record =>
          refine ⟨.trans (.update heap record ?_) (.note _ _), Array.toList_push⟩
          exact fun _ => rfl
      | proxy type capabilities inner => exact ⟨.note heap _, Array.toList_push⟩

end Bean

/-- What the processor answers in the pass, which is the bean itself if it has no hook. -/
def Processor.verdict (processor : Processor) (pass : Pass) (name : String) (bean : Bean) :
    Verdict :=
  match processor.hook? pass with
  | none => .proceed bean
  | some hook => hook name bean

/-- The events by which the processor takes its turn in the pass. -/
def Processor.turn (processor : Processor) (pass : Pass) (name : String) (bean : Bean) :
    List Event :=
  match processor.hook? pass with
  | none => []
  | some _ => [processor.event pass name bean]

namespace Link

/-- What the link answers in the pass.  The built-in processor keeps to the bean. -/
def verdict (link : Link) (pass : Pass) (name : String) (bean : Bean) : Verdict :=
  match link with
  | .awareness _ => .proceed bean
  | .shared processor | .owned processor => processor.verdict pass name bean

/-- The events by which the link takes its turn in the pass. -/
def turn (link : Link) (view : Heap) (pass : Pass) (name : String) (bean : Bean) : List Event :=
  match link, pass with
  | .awareness container, .before => bean.tellings view name container
  | .awareness _, .after => []
  | .shared processor, pass | .owned processor, pass => processor.turn pass name bean

end Link

/-- What a turn comes to, given the answer: the events that follow it, and the bean that the pass
goes on with or the error. -/
inductive Verdict.Carries : Verdict → List Event → Except BeanError Bean → Prop
  | proceed {bean : Bean} : Carries (.proceed bean) [] (.ok bean)
  | replace {bean : Bean} : Carries (.replace bean.type) [.created bean] (.ok bean)
  | fail {error : BeanError} : Carries (.fail error) [] (.error error)

theorem Verdict.carryOut_tells (view : Heap) (verdict : Verdict) :
    HeapM.Tells view (fun events result => verdict.Carries events result) verdict.carryOut := by
  cases verdict with
  | proceed bean => exact .pure .proceed
  | replace type =>
      refine .mono ?_ (.create type)
      rintro _ _ ⟨bean, rfl, rfl, rfl⟩
      exact .replace
  | fail error => exact .throw .fail

/-- A turn is told by the events of the link and those of its answer. -/
def Link.Acts (link : Link) (view : Heap) (pass : Pass) (name : String) (bean : Bean)
    (events : List Event) (result : Except BeanError Bean) : Prop :=
  ∃ later, events = link.turn view pass name bean ++ later ∧
    (link.verdict pass name bean).Carries later result

theorem Processor.apply_tells (view : Heap) (processor : Processor) (pass : Pass) (name : String)
    (bean : Bean) :
    HeapM.Tells view (fun events result => ∃ later, events = processor.turn pass name bean ++ later ∧
      (processor.verdict pass name bean).Carries later result)
      (processor.apply pass name bean) := by
  unfold Processor.apply Processor.turn Processor.verdict
  cases processor.hook? pass with
  | none => exact .pure ⟨[], rfl, .proceed⟩
  | some hook =>
      refine .bind (.note _) (fun _ _ told => nomatch told.2) ?_
      rintro _ _ ⟨rfl, _⟩
      exact ((hook name bean).carryOut_tells view).mono fun later _ carries => ⟨later, rfl, carries⟩

theorem Link.apply_tells (view : Heap) (link : Link) (pass : Pass) (name : String) (bean : Bean) :
    HeapM.Tells view (link.Acts view pass name bean) (link.apply pass name bean) := by
  cases link with
  | shared processor => exact processor.apply_tells view pass name bean
  | owned processor => exact processor.apply_tells view pass name bean
  | awareness container =>
      cases pass with
      | after => exact .pure ⟨[], rfl, .proceed⟩
      | before =>
          intro heap same
          obtain ⟨sameNamed, named⟩ := bean.tellName_tells name heap
          obtain ⟨sameGiven, given⟩ :=
            bean.giveContainer_tells container ((bean.tellName name heap).getD heap)
          have chains := same.trans sameNamed
          refine ⟨chains.trans sameGiven, bean.tellings view name container, ?_, [], by simp [turn],
            .proceed⟩
          rw [Bean.tellings, ← List.append_assoc, ← same.seek, ← named, ← chains.seek]
          exact given

/-! ## A pass through the chain -/

/-- The course of a pass through links, as the events it adds and the bean or the error that it
ends with.  Each link has its turn with what the one before it answered; a link that is not
concerned leaves the bean as it was. -/
inductive Chain.Passes (view : Heap) (pass : Pass) (name : String) :
    List Link → Bean → List Event → Except BeanError Bean → Prop
  | through {bean : Bean} : Passes view pass name [] bean [] (.ok bean)
  | next {link : Link} {links : List Link} {bean answer : Bean} {events later : List Event}
      {result : Except BeanError Bean}
      (acts : link.Acts view pass name bean events (.ok answer))
      (rest : Passes view pass name links answer later result) :
      Passes view pass name (link :: links) bean (events ++ later) result
  | unconcerned {link : Link} {links : List Link} {bean : Bean} {events later : List Event}
      {error : BeanError} {result : Except BeanError Bean}
      (acts : link.Acts view pass name bean events (.error error))
      (declined : error.isDeclined = true)
      (rest : Passes view pass name links bean later result) :
      Passes view pass name (link :: links) bean (events ++ later) result
  | failed {link : Link} {links : List Link} {bean : Bean} {events : List Event}
      {error : BeanError} (acts : link.Acts view pass name bean events (.error error))
      (severe : error.isDeclined = false) :
      Passes view pass name (link :: links) bean events (.error error)

namespace Chain

theorem passLinks_tells (view : Heap) (pass : Pass) (name : String) (links : List Link) (bean : Bean) :
    HeapM.Tells view (Passes view pass name links bean) (passLinks pass name links bean) := by
  induction links generalizing bean with
  | nil => exact .pure .through
  | cons link links ih =>
      -- What a link comes to once its refusal to act has been caught.
      let goesOn (events : List Event) (result : Except BeanError Bean) : Prop :=
        ∀ later final, (∀ answer, result = .ok answer →
            Passes view pass name links answer later final) →
          (∀ error, result = .error error → later = [] ∧ final = .error error) →
            Passes view pass name (link :: links) bean (events ++ later) final
      have turn : HeapM.Tells view goesOn (tryCatch (link.apply pass name bean) fun error =>
          if error.isDeclined then return bean else throw error) := by
        refine .tryCatch (link.apply_tells view pass name bean) ?_ ?_
        · intro events answer acts later final rest _
          exact .next acts (rest answer rfl)
        · intro events error acts
          split
          next declined =>
            refine .pure ?_
            intro later final rest _
            rw [List.append_nil]
            exact .unconcerned acts declined (rest bean rfl)
          next severe =>
            refine .throw ?_
            intro later final _ ends
            obtain ⟨rfl, rfl⟩ := ends error rfl
            rw [List.append_nil, List.append_nil]
            exact .failed acts (Bool.eq_false_iff.2 severe)
      refine .bind turn ?_ ?_
      · intro events error told
        have ended := told [] (.error error) nofun fun _ same => ⟨rfl, by cases same; rfl⟩
        rwa [List.append_nil] at ended
      · intro events answer told
        refine (ih answer).mono fun later result passes => ?_
        exact told later result (fun _ same => by cases same; exact passes) nofun

theorem pass_tells (view : Heap) (chain : Chain) (pass : Pass) (name : String) (bean : Bean) :
    HeapM.Tells view (Passes view pass name chain.links bean) (chain.pass pass name bean) :=
  passLinks_tells view pass name chain.links bean

/-- The turns of the processors that look at the definition of a bean. -/
def inspections (chain : Chain) (name : String) (type : TypeName) : List Event :=
  ((chain.links.filterMap Link.processor?).filter (·.inspects)).map fun processor =>
    .inspected processor.id name type

theorem inspect_tells (view : Heap) (chain : Chain) (name : String) (type : TypeName) :
    HeapM.Tells view (fun events result => events = chain.inspections name type ∧ result = .ok ())
      (chain.inspect name type) := by
  unfold inspect inspections
  induction chain.links.filterMap Link.processor? with
  | nil => exact .pure ⟨rfl, rfl⟩
  | cons processor processors ih =>
      let shown := ([processor].filter (·.inspects)).map fun processor =>
        Event.inspected processor.id name type
      have turn : HeapM.Tells view (fun events result => events = shown ∧ result = .ok ())
          (if processor.inspects then HeapM.note (.inspected processor.id name type)
            else return) := by
        split
        next inspects => exact (HeapM.Tells.note _).mono (by simp [shown, inspects])
        next ignores => exact .pure (by simp [shown, ignores])
      refine .bind turn (fun _ _ told => nomatch told.2) ?_
      rintro _ _ ⟨rfl, _⟩
      refine ih.mono ?_
      rintro _ _ ⟨rfl, rfl⟩
      simp only [shown, ← List.map_append, ← List.filter_append, List.singleton_append, and_self]

end Chain

/-! ## Finishing a bean -/

namespace Container

theorem start_tells (view : Heap) (name : String) (bean : Bean) :
    HeapM.Tells view (fun events result => events = bean.startings view ∧
      (result = .ok () ∧ bean.StartsWell view ∨ ∃ link cause,
        view.seek bean (·.onWired) = some (link, .error cause) ∧
          result = .error (.lifecycle name "after_properties_set" cause)))
      (start name bean) := by
  intro heap same
  unfold start
  rw [bind_apply_ok (get_apply heap)]
  unfold Bean.start Bean.startings Bean.StartsWell
  rw [same.seek]
  cases found : view.seek bean (·.onWired) with
  | none => exact ⟨same, [], by simp, rfl, .inl ⟨rfl, nofun⟩⟩
  | some answer =>
      obtain ⟨link, result⟩ := answer
      have noted := same.trans (.note heap (.started link))
      cases result with
      | ok done =>
          refine ⟨noted, [.started link], Array.toList_push, rfl, .inl ⟨rfl, ?_⟩⟩
          rintro _ _ same
          cases same
          rfl
      | error cause =>
          exact ⟨noted, [.started link], Array.toList_push, rfl, .inr ⟨link, cause, rfl, rfl⟩⟩

/-- The turns of a wired bean, as events and how they end: the processors that look at
definitions, the first pass, the callback of the bean that came out of it, and the second
pass. -/
inductive Turns (view : Heap) (chain : Chain) (name : String) (type : TypeName) (raw : Bean) :
    List Event → Except BeanError Unit → Prop
  | stopped {events : List Event} {error : BeanError}
      (before : Chain.Passes view .before name chain.links raw events (.error error)) :
      Turns view chain name type raw (chain.inspections name type ++ events) (.error error)
  | unstarted {events : List Event} {bean link : Bean} {cause : String}
      (before : Chain.Passes view .before name chain.links raw events (.ok bean))
      (starts : view.seek bean (·.onWired) = some (link, .error cause)) :
      Turns view chain name type raw (chain.inspections name type ++ events ++ bean.startings view)
        (.error (.lifecycle name "after_properties_set" cause))
  | stoppedLate {events later : List Event} {bean : Bean} {error : BeanError}
      (before : Chain.Passes view .before name chain.links raw events (.ok bean))
      (starts : bean.StartsWell view)
      (after : Chain.Passes view .after name chain.links bean later (.error error)) :
      Turns view chain name type raw
        (chain.inspections name type ++ events ++ bean.startings view ++ later) (.error error)
  | through {events later : List Event} {bean last : Bean}
      (before : Chain.Passes view .before name chain.links raw events (.ok bean))
      (starts : bean.StartsWell view)
      (after : Chain.Passes view .after name chain.links bean later (.ok last)) :
      Turns view chain name type raw
        (chain.inspections name type ++ events ++ bean.startings view ++ later) (.ok ())

/-- Finishing a bean whose fields are resolved, as events and how it ends: its fields cannot be
written, or they are written and it has its turns.  These go by what its record and the others
stand in for once the fields are written, in a heap that is seen after the events up to there. -/
inductive Finishes (sees : List Event → Heap → Prop) (chain : Chain) (definition : Definition)
    (name : String) (raw : Bean) : List Event → Except BeanError Unit → Prop
  | unwritten {error : BeanError} :
      Finishes sees chain definition name raw [.resolved name raw] (.error error)
  | wired {view : Heap} {events : List Event} {result : Except BeanError Unit}
      (isSeen : sees [.resolved name raw, .wired name raw] view)
      (turns : Turns view chain name definition.type raw events result) :
      Finishes sees chain definition name raw (.resolved name raw :: .wired name raw :: events)
        result

theorem Finishes.mono {sees also : List Event → Heap → Prop} {chain : Chain}
    {definition : Definition} {name : String} {raw : Bean} {events : List Event}
    {result : Except BeanError Unit}
    (finishes : Finishes sees chain definition name raw events result)
    (implies : ∀ events view, sees events view → also events view) :
    Finishes also chain definition name raw events result := by
  cases finishes with
  | unwritten => exact .unwritten
  | wired isSeen turns => exact .wired (implies _ _ isSeen) turns

/-- Writing fields adds no event. -/
theorem write_journal (supply : Supply) (target : Bean) (points : List InjectionPoint)
    (heap : Heap) : (supply.write target points heap).2.2.journal = heap.journal := by
  induction points generalizing supply heap with
  | nil => rfl
  | cons point points ih =>
      unfold Supply.write
      split
      next => exact ih supply heap
      next value _ =>
        cases wrote : point.write target value heap with
        | error error => rfl
        | ok written =>
            obtain ⟨record, cell, _, _, filled⟩ := InjectionPoint.write_eq_ok wrote
            refine (ih _ written).trans ?_
            rw [(Heap.fill?_eq_some filled).2]
            rfl

/-- The turns of a wired bean are taken in one fixed order. -/
theorem turns_tells (view : Heap) (chain : Chain) (name : String) (type : TypeName) (raw : Bean) :
    HeapM.Tells view (Turns view chain name type raw) (turns chain name type raw) := by
  refine .bind (chain.inspect_tells view name type) (fun _ _ told => nomatch told.2) ?_
  rintro _ _ ⟨rfl, _⟩
  refine .bind (chain.pass_tells view .before name raw) (fun _ _ before => .stopped before) ?_
  intro events bean before
  refine .bind (start_tells view name bean) ?_ ?_
  · rintro _ error ⟨rfl, ⟨impossible, _⟩ | ⟨link, cause, starts, same⟩⟩
    · cases impossible
    · cases same
      rw [← List.append_assoc]
      exact .unstarted before starts
  · rintro _ _ ⟨rfl, ⟨_, starts⟩ | ⟨_, _, _, impossible⟩⟩
    · refine .bind (chain.pass_tells view .after name bean) ?_ ?_
      · intro later error after
        rw [← List.append_assoc, ← List.append_assoc]
        exact .stoppedLate before starts after
      · intro later last after
        refine .pure ?_
        rw [List.append_nil, ← List.append_assoc, ← List.append_assoc]
        exact .through before starts after
    · cases impossible

/-- Finishing a bean adds the events of its course.  Its turns go by the heap in which its fields
are written, and no cell is filled after that. -/
theorem finish_tells (chain : Chain) (definition : Definition) (name : String) (raw : Bean)
    (supply : Supply) (heap : Heap) :
    ∃ events, (finish chain definition name raw supply heap).2.journal.toList =
        heap.journal.toList ++ events ∧
      Finishes (fun events => heap.Between raw.IsAt (fun _ => False)
          (finish chain definition name raw supply heap).2 (heap.journal.toList ++ events))
        chain definition name raw events (finish chain definition name raw supply heap).1 := by
  have noting : ∀ event heap, HeapM.note event heap = (.ok ⟨⟩, Heap.note heap event) :=
    fun _ _ => rfl
  have resolved : (heap.note (.resolved name raw)).journal.toList =
      heap.journal.toList ++ [.resolved name raw] := Array.toList_push
  have journal := write_journal supply raw definition.fields (heap.note (.resolved name raw))
  have wires := Supply.write_wires raw definition.fields supply (heap.note (.resolved name raw))
  rw [finish_eq, bind_apply_ok (noting _ heap), bind_apply, Supply.wire_apply]
  generalize supply.write raw definition.fields (heap.note (.resolved name raw)) = outcome
    at journal wires ⊢
  obtain ⟨result, left, written⟩ := outcome
  cases result with
  | error error => exact ⟨[.resolved name raw], by rw [← resolved, ← journal], .unwritten⟩
  | ok done =>
      dsimp only at journal wires ⊢
      rw [bind_apply_ok (noting _ written)]
      obtain ⟨_, events, told, turns⟩ := turns_tells (written.note (.wired name raw)) chain name
        definition.type raw (written.note (.wired name raw)) (.refl _)
      have wired : (written.note (.wired name raw)).journal.toList =
          heap.journal.toList ++ [.resolved name raw, .wired name raw] := by
        rw [Heap.note, Array.toList_push, journal, resolved, List.append_assoc]
        rfl
      have continues := turns_continues chain name definition.type raw
        (written.note (.wired name raw))
      refine ⟨.resolved name raw :: .wired name raw :: events, ?_, .wired ⟨wired, ?_, ?_⟩ turns⟩
      · rw [told, wired, List.append_assoc]
        rfl
      · have writing := wires.grows.mono (fun _ => id) fun _ _ => trivial
        have noted : heap.Extends raw.IsAt (fun _ => True) (heap.note (.resolved name raw)) :=
          .note heap trivial
        exact noted.trans (writing.trans (.note written trivial))
      · exact continues.mono (fun _ => id) fun _ _ => trivial

end Container

/-! ## The kind of the events -/

/-- Whether the event is the turn of a processor or a callback, or part of one. -/
def Event.IsTurn : Event → Prop
  | .created _ | .inspected .. | .named .. | .acquainted .. | .before .. | .started _
  | .after .. => True
  | .constructed .. | .entered .. | .resolved .. | .wired .. | .committed .. | .abandoned ..
  | .handedOut .. | .notified _ | .destroyed .. => False

/-- All of the events are turns. -/
def AreTurns (events : List Event) : Prop := ∀ event ∈ events, event.IsTurn

theorem AreTurns.nil : AreTurns [] := by simp [AreTurns]

theorem AreTurns.append {one two : List Event} (first : AreTurns one) (second : AreTurns two) :
    AreTurns (one ++ two) := by
  intro event member
  rcases List.mem_append.1 member with early | late
  · exact first event early
  · exact second event late

theorem Link.turn_areTurns (link : Link) (view : Heap) (pass : Pass) (name : String)
    (bean : Bean) : AreTurns (link.turn view pass name bean) := by
  have processed : ∀ processor : Processor, AreTurns (processor.turn pass name bean) := by
    intro processor
    unfold Processor.turn
    cases processor.hook? pass with
    | none => exact .nil
    | some hook =>
        intro event member
        rw [List.mem_singleton.1 member]
        cases pass with
        | before => trivial
        | after => trivial
  cases link with
  | shared processor => exact processed processor
  | owned processor => exact processed processor
  | awareness container =>
      cases pass with
      | after => exact .nil
      | before =>
          refine .append ?_ ?_
          · intro event member
            obtain ⟨found, _, rfl⟩ := Option.map_eq_some_iff.1 (Option.mem_toList.1 member)
            trivial
          · intro event member
            obtain ⟨found, _, rfl⟩ := Option.map_eq_some_iff.1 (Option.mem_toList.1 member)
            trivial

theorem Link.Acts.areTurns {link : Link} {view : Heap} {pass : Pass} {name : String} {bean : Bean}
    {events : List Event} {result : Except BeanError Bean}
    (acts : link.Acts view pass name bean events result) : AreTurns events := by
  obtain ⟨later, rfl, carries⟩ := acts
  refine (link.turn_areTurns view pass name bean).append ?_
  generalize link.verdict pass name bean = verdict at carries
  cases carries with
  | proceed => exact .nil
  | fail => exact .nil
  | replace =>
      intro event member
      rw [List.mem_singleton.1 member]
      trivial

theorem Chain.Passes.areTurns {view : Heap} {pass : Pass} {name : String} {links : List Link} {bean : Bean}
    {events : List Event} {result : Except BeanError Bean}
    (passes : Chain.Passes view pass name links bean events result) : AreTurns events := by
  induction passes with
  | through => exact .nil
  | next acts _ ih => exact acts.areTurns.append ih
  | unconcerned acts _ _ ih => exact acts.areTurns.append ih
  | failed acts _ => exact acts.areTurns

theorem Chain.inspections_areTurns (chain : Chain) (name : String) (type : TypeName) :
    AreTurns (chain.inspections name type) := by
  intro event member
  obtain ⟨processor, _, rfl⟩ := List.mem_map.1 member
  trivial

theorem Bean.startings_areTurns (bean : Bean) (view : Heap) : AreTurns (bean.startings view) := by
  intro event member
  obtain ⟨found, _, rfl⟩ := Option.map_eq_some_iff.1 (Option.mem_toList.1 member)
  trivial

namespace Container

theorem Turns.areTurns {view : Heap} {chain : Chain} {name : String} {type : TypeName} {raw : Bean}
    {events : List Event} {result : Except BeanError Unit}
    (turns : Turns view chain name type raw events result) : AreTurns events := by
  have shown := chain.inspections_areTurns name type
  have started := fun bean : Bean => bean.startings_areTurns view
  cases turns with
  | stopped before => exact shown.append before.areTurns
  | unstarted before _ => exact (shown.append before.areTurns).append (started _)
  | stoppedLate before _ after =>
      exact ((shown.append before.areTurns).append (started _)).append after.areTurns
  | through before _ after =>
      exact ((shown.append before.areTurns).append (started _)).append after.areTurns

end Container
end BeanContainer
