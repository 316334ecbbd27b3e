import BeanContainer.Proofs.Heap.Turns
import BeanContainer.Proofs.Request.Growth

/-!
# The course of each new bean

However deep the creations of beans are nested, and wherever they fail, what happens to one bean
after its construction is told by one course: the bean is never entered, or it is entered once, its
fields are resolved, it is finished as far as this goes, and it is committed or abandoned.  While
its fields are resolved other beans have their courses, so the journal is read in stretches.  The
beans of two stretches that are not nested are different ones, by the place of their records.
-/

namespace BeanContainer

namespace Event

/-- The bean whose creation the event is a step of, with the name it is created for.  The turns of
processors and callbacks are no such steps, since they may go to any bean. -/
def stage? : Event → Option (String × Bean)
  | .constructed name _ bean | .entered name bean | .resolved name bean | .wired name bean
  | .committed name bean | .abandoned name bean => some (name, bean)
  | .created _ | .inspected .. | .named .. | .acquainted .. | .before .. | .started _ | .after ..
  | .handedOut .. | .notified _ | .destroyed .. => none

end Event

/-- None of the events is a step of the creation of a bean. -/
def Calm (events : List Event) : Prop := ∀ event ∈ events, event.stage? = none

/-- None of the events is a step of the creation of this bean. -/
def Quiet (bean : Bean) (events : List Event) : Prop :=
  ∀ event ∈ events, ∀ owner, event.stage? ≠ some (owner, bean)

section Stretches

variable {bean : Bean} {one two : List Event}

theorem Calm.nil : Calm [] := by simp [Calm]

theorem Quiet.nil : Quiet bean [] := by simp [Quiet]

theorem Quiet.append (first : Quiet bean one) (second : Quiet bean two) :
    Quiet bean (one ++ two) := by
  intro event member
  rcases List.mem_append.1 member with early | late
  · exact first event early
  · exact second event late

/-- An event in two stretches lies in one of them. -/
theorem split_append {α : Type} {one two prior later : List α} {item : α}
    (split : one ++ two = prior ++ item :: later) :
    (∃ rest, one = prior ++ item :: rest ∧ later = rest ++ two) ∨
      ∃ front, prior = one ++ front ∧ two = front ++ item :: later := by
  rcases List.append_eq_append_iff.1 split with ⟨front, isPrior, isTwo⟩ | ⟨rest, isOne, isLater⟩
  · exact .inr ⟨front, isPrior, isTwo⟩
  · cases rest with
    | nil =>
        refine .inr ⟨[], ?_, isLater.symm⟩
        rw [isOne]
        simp
    | cons first rest =>
        cases isLater
        exact .inl ⟨rest, isOne, rfl⟩

end Stretches

theorem Event.IsTurn.stage?_eq_none {event : Event} (isTurn : event.IsTurn) :
    event.stage? = none := by
  cases event with
  | created | inspected | named | acquainted | before | started | after => rfl
  | _ => exact isTurn.elim

namespace Container

/-! ## Courses -/

/-- How the creation of an entered bean ends: its fields could not be resolved, it could not be
finished, or it is finished.  Its turns go by a heap that is seen after the events up to there. -/
inductive Ending (sees : List Event → Heap → Prop) (chain : Chain) (definition : Definition)
    (name : String) (raw : Bean) : List Event → Except BeanError Unit → Prop
  | unresolved {error : BeanError} :
      Ending sees chain definition name raw [.abandoned name raw] (.error error)
  | failed {events : List Event} {error : BeanError}
      (finishes : Finishes sees chain definition name raw events (.error error)) :
      Ending sees chain definition name raw (events ++ [.abandoned name raw]) (.error error)
  | finished {events : List Event}
      (finishes : Finishes sees chain definition name raw events (.ok ())) :
      Ending sees chain definition name raw (events ++ [.committed name raw]) (.ok ())

/-- All that happens after a bean was constructed, as far as its own creation is concerned.  A
spare bean goes no further.  The creation of an entered bean has an end, and nothing else in the
journal is a step of it.  Its turns go by a heap that is seen after the events since it was
constructed. -/
inductive Course (sees : List Event → Heap → Prop) (chain : Chain) (definition : Definition)
    (name : String) (raw : Bean) : Option (Except BeanError Unit) → List Event → Prop
  | spare {later : List Event} (quiet : Quiet raw later) :
      Course sees chain definition name raw none later
  | entered {resolving ending later : List Event} {result : Except BeanError Unit}
      (aside : Quiet raw resolving)
      (ends : Ending (fun events => sees (.entered name raw :: (resolving ++ events))) chain
        definition name raw ending result)
      (quiet : Quiet raw later) :
      Course sees chain definition name raw (some result)
        (.entered name raw :: (resolving ++ ending ++ later))

section Courses

variable {sees also : List Event → Heap → Prop} {chain : Chain} {definition : Definition}
  {name : String} {raw : Bean} {events later : List Event}

theorem Ending.mono {result : Except BeanError Unit}
    (ends : Ending sees chain definition name raw events result)
    (implies : ∀ events view, sees events view → also events view) :
    Ending also chain definition name raw events result := by
  cases ends with
  | unresolved => exact .unresolved
  | failed finishes => exact .failed (finishes.mono implies)
  | finished finishes => exact .finished (finishes.mono implies)

theorem Course.mono {outcome : Option (Except BeanError Unit)}
    (course : Course sees chain definition name raw outcome events)
    (implies : ∀ events view, sees events view → also events view) :
    Course also chain definition name raw outcome events := by
  cases course with
  | spare quiet => exact .spare quiet
  | entered aside ends quiet => exact .entered aside (ends.mono fun _ => implies _) quiet

/-- What else happens does not matter to a bean whose creation has ended. -/
theorem Course.append {outcome : Option (Except BeanError Unit)}
    (course : Course sees chain definition name raw outcome events) (quiet : Quiet raw later) :
    Course sees chain definition name raw outcome (events ++ later) := by
  cases course with
  | spare before => exact .spare (before.append quiet)
  | entered aside ends before =>
      rw [List.cons_append, List.append_assoc]
      exact .entered aside ends (before.append quiet)

/-- The steps of an ending are those of its own bean, which is not constructed again. -/
theorem Finishes.stage {result : Except BeanError Unit}
    (finishes : Finishes sees chain definition name raw events result) {event : Event}
    (member : event ∈ events) :
    event.stage? = none ∨ event = .resolved name raw ∨ event = .wired name raw := by
  cases finishes with
  | unwritten => exact .inr (.inl (List.mem_singleton.1 member))
  | wired _ turns =>
      rcases List.mem_cons.1 member with isResolved | member
      · exact .inr (.inl isResolved)
      · rcases List.mem_cons.1 member with isWired | member
        · exact .inr (.inr isWired)
        · exact .inl (turns.areTurns event member).stage?_eq_none

theorem Ending.stage {result : Except BeanError Unit}
    (ends : Ending sees chain definition name raw events result) {event : Event}
    (member : event ∈ events) :
    (event.stage? = none ∨ event.stage? = some (name, raw)) ∧
      ∀ owner definition bean, event ≠ .constructed owner definition bean := by
  have own : ∀ {event : Event}, event = .abandoned name raw ∨ event = .committed name raw ∨
      event = .resolved name raw ∨ event = .wired name raw →
        (event.stage? = none ∨ event.stage? = some (name, raw)) ∧
          ∀ owner definition bean, event ≠ .constructed owner definition bean := by
    rintro _ (rfl | rfl | rfl | rfl)
    all_goals exact ⟨.inr rfl, by simp⟩
  have finished : ∀ {events : List Event} {result : Except BeanError Unit},
      Finishes sees chain definition name raw events result → ∀ event ∈ events,
        (event.stage? = none ∨ event.stage? = some (name, raw)) ∧
          ∀ owner definition bean, event ≠ .constructed owner definition bean := by
    intro events result finishes event member
    rcases finishes.stage member with calm | isResolved | isWired
    · refine ⟨.inl calm, ?_⟩
      rintro owner definition bean rfl
      cases calm
    · exact own (.inr (.inr (.inl isResolved)))
    · exact own (.inr (.inr (.inr isWired)))
  cases ends with
  | unresolved => exact own (.inl (List.mem_singleton.1 member))
  | failed finishes =>
      rcases List.mem_append.1 member with early | last
      · exact finished finishes event early
      · exact own (.inl (List.mem_singleton.1 last))
  | finished finishes =>
      rcases List.mem_append.1 member with early | last
      · exact finished finishes event early
      · exact own (.inr (.inl (List.mem_singleton.1 last)))

end Courses

/-! ## Stretches of the journal -/

/-- A stretch of the journal in which beans of some records have their whole courses, from the
construction to the end.  Their turns go by heaps that are seen, for the record of the bean, after
the events of the stretch up to there. -/
structure Recounted (sees : Nat → List Event → Heap → Prop) (chain : Chain) (mine : Nat → Prop)
    (events : List Event) : Prop where
  within : ∀ event ∈ events, ∀ owner bean, event.stage? = some (owner, bean) →
    ∃ record, bean = .plain record ∧ mine record.index
  courses : ∀ prior owner definition bean later,
    events = prior ++ .constructed owner definition bean :: later →
      Quiet bean prior ∧ ∃ outcome, Course (fun events =>
        sees bean.innermost.index (prior ++ .constructed owner definition bean :: events))
        chain definition owner bean outcome later

namespace Recounted

variable {sees also : Nat → List Event → Heap → Prop} {chain : Chain} {mine other : Nat → Prop}
  {events later : List Event}

/-- A stretch is quiet for beans of other records. -/
theorem quiet (recounted : Recounted sees chain mine events) {record : Record}
    (apart : ¬ mine record.index) : Quiet (.plain record) events := by
  intro event member owner isStage
  obtain ⟨same, isRecord, isMine⟩ := recounted.within event member owner _ isStage
  cases isRecord
  exact apart isMine

theorem of_calm (calm : Calm events) : Recounted sees chain mine events where
  within event member owner bean isStage := by
    rw [calm event member] at isStage
    cases isStage
  courses prior owner definition bean later split := by
    have isStage := calm (.constructed owner definition bean) (by simp [split])
    cases isStage

/-- The record of a bean that is constructed in a stretch. -/
theorem record_of_split (recounted : Recounted sees chain mine events) {prior rest : List Event}
    {owner : String} {definition : Definition} {bean : Bean}
    (split : events = prior ++ .constructed owner definition bean :: rest) :
    ∃ record, bean = .plain record ∧ mine record.index :=
  recounted.within (.constructed owner definition bean) (by simp [split]) owner bean rfl

theorem mono (recounted : Recounted sees chain mine events)
    (more : ∀ index, mine index → other index)
    (implies : ∀ index events view, mine index → sees index events view →
      also index events view) : Recounted also chain other events where
  within event member owner bean isStage := by
    obtain ⟨record, isRecord, isMine⟩ := recounted.within event member owner bean isStage
    exact ⟨record, isRecord, more _ isMine⟩
  courses prior owner definition bean rest split := by
    obtain ⟨record, rfl, isMine⟩ := recounted.record_of_split split
    obtain ⟨before, outcome, course⟩ := recounted.courses _ _ _ _ _ split
    exact ⟨before, outcome, course.mono fun _ view => implies record.index _ view isMine⟩

/-- Two stretches that are concerned with different records follow each other. -/
theorem append (first : Recounted sees chain mine events)
    (second : Recounted (fun index front => sees index (events ++ front)) chain other later)
    (apart : ∀ index, mine index → ¬ other index) :
    Recounted sees chain (fun index => mine index ∨ other index) (events ++ later) where
  within event member owner bean isStage := by
    rcases List.mem_append.1 member with early | late
    · obtain ⟨record, isRecord, isMine⟩ := first.within event early owner bean isStage
      exact ⟨record, isRecord, .inl isMine⟩
    · obtain ⟨record, isRecord, isMine⟩ := second.within event late owner bean isStage
      exact ⟨record, isRecord, .inr isMine⟩
  courses prior owner definition bean rest split := by
    rcases split_append split with ⟨middle, isFirst, rfl⟩ | ⟨front, rfl, isSecond⟩
    · obtain ⟨record, rfl, isMine⟩ := first.record_of_split isFirst
      obtain ⟨before, outcome, course⟩ := first.courses _ _ _ _ _ isFirst
      exact ⟨before, outcome, course.append (second.quiet (apart _ isMine))⟩
    · obtain ⟨record, rfl, isOther⟩ := second.record_of_split isSecond
      obtain ⟨before, outcome, course⟩ := second.courses _ _ _ _ _ isSecond
      refine ⟨(first.quiet fun isMine => apart _ isMine isOther).append before, outcome,
        course.mono fun later view isSeen => ?_⟩
      rw [List.append_assoc]
      exact isSeen

/-- Calm events may come before a stretch. -/
theorem after_calm {calmly : List Event} (calm : Calm calmly)
    (recounted : Recounted (fun index front => sees index (calmly ++ front)) chain mine events) :
    Recounted sees chain mine (calmly ++ events) := by
  have before : Recounted sees chain (fun _ => False) calmly := .of_calm calm
  refine (before.append recounted fun _ => False.elim).mono ?_ fun _ _ _ _ => id
  rintro index (impossible | isMine)
  · exact impossible.elim
  · exact isMine

/-- A bean that was constructed and then given up. -/
theorem spare (name : String) (definition : Definition) (record : Record) :
    Recounted sees chain (· = record.index) [.constructed name definition (.plain record)] where
  within event member owner bean isStage := by
    rw [List.mem_singleton.1 member] at isStage
    cases isStage
    exact ⟨record, rfl, rfl⟩
  courses prior owner other bean later split := by
    cases prior with
    | cons first prior => simp at split
    | nil =>
        cases split
        exact ⟨.nil, none, .spare .nil⟩

/-- A bean that is entered has its course around those of the beans that are made while its
fields are resolved. -/
theorem around {definition : Definition} {name : String} {record : Record}
    {ending : List Event} {result : Except BeanError Unit}
    (inside : Recounted (fun index front => sees index
      (.constructed name definition (.plain record) :: .entered name (.plain record) :: front))
      chain mine events) (apart : ¬ mine record.index)
    (ends : Ending (fun front => sees record.index (.constructed name definition (.plain record) ::
      .entered name (.plain record) :: (events ++ front))) chain definition name (.plain record)
      ending result) :
    Recounted sees chain (fun index => index = record.index ∨ mine index)
      (.constructed name definition (.plain record) :: .entered name (.plain record) ::
        (events ++ ending)) where
  within event member owner bean isStage := by
    have own : some (name, Bean.plain record) = some (owner, bean) →
        ∃ same, bean = .plain same ∧ (same.index = record.index ∨ mine same.index) := by
      intro isRaw
      cases isRaw
      exact ⟨record, rfl, .inl rfl⟩
    rcases List.mem_cons.1 member with rfl | member
    · exact own isStage
    rcases List.mem_cons.1 member with rfl | member
    · exact own isStage
    rcases List.mem_append.1 member with early | late
    · obtain ⟨held, isRecord, isMine⟩ := inside.within event early owner bean isStage
      exact ⟨held, isRecord, .inr isMine⟩
    · rcases (ends.stage late).1 with calm | isOwn
      · rw [calm] at isStage
        cases isStage
      · rw [isOwn] at isStage
        exact own isStage
  courses prior owner other bean later split := by
    cases prior with
    | nil =>
        cases split
        refine ⟨.nil, some result, ?_⟩
        rw [← List.append_nil (events ++ ending)]
        exact .entered (inside.quiet apart) ends .nil
    | cons first prior =>
        obtain ⟨rfl, splitEntered⟩ := List.cons.inj split
        cases prior with
        | nil => cases (List.cons.inj splitEntered).1
        | cons second prior =>
            obtain ⟨rfl, splitRest⟩ := List.cons.inj splitEntered
            rcases split_append splitRest with ⟨rest, isInside, rfl⟩ | ⟨front, _, isEnding⟩
            · obtain ⟨held, rfl, isMine⟩ := inside.record_of_split isInside
              obtain ⟨before, outcome, course⟩ := inside.courses _ _ _ _ _ isInside
              -- The bean is not the one around it, whose steps all others here are.
              have differs : ∀ (event : Event) (owner : String),
                  (event.stage? = none ∨ event.stage? = some (name, .plain record)) →
                    event.stage? ≠ some (owner, .plain held) := by
                intro event owner isOwn isHeld
                rw [isHeld] at isOwn
                rcases isOwn with impossible | isRaw
                · cases impossible
                · cases isRaw
                  exact apart isMine
              refine ⟨?_, outcome, course.append fun event member owner =>
                differs event owner (ends.stage member).1⟩
              intro event member owner
              rcases List.mem_cons.1 member with rfl | member
              · exact differs _ owner (.inr rfl)
              rcases List.mem_cons.1 member with rfl | member
              · exact differs _ owner (.inr rfl)
              · exact before event member owner
            · have member : Event.constructed owner other bean ∈ ending := by simp [isEnding]
              exact absurd rfl ((ends.stage member).2 owner other bean)

end Recounted

end Container

/-- The events between the two heaps are the whole courses of new beans.  Once the fields of a bean
are written, no cell of it or of a newer bean is filled any more. -/
def Heap.Recounts (chain : Chain) (before after : Heap) : Prop :=
  ∃ events, after.journal.toList = before.journal.toList ++ events ∧
    Container.Recounted (fun index front => before.Between (before.contents.size ≤ ·) (· < index)
        after (before.journal.toList ++ front)) chain
      (fun index => before.contents.size ≤ index ∧ index < after.contents.size) events

namespace Heap.Recounts

open Container

variable {chain : Chain} {first second third : Heap}

theorem refl (heap : Heap) : Heap.Recounts chain heap heap := ⟨[], by simp, .of_calm .nil⟩

theorem of_extends {fills : Nat → Prop} {adds : Event → Prop}
    (extended : Heap.Extends fills adds first second)
    (calm : ∀ event, adds event → event.stage? = none) : Heap.Recounts chain first second := by
  obtain ⟨events, journal, every⟩ := extended.journal
  exact ⟨events, journal, .of_calm fun event member => calm event (every event member)⟩

theorem note (heap : Heap) {event : Event} (calm : event.stage? = none) :
    Heap.Recounts chain heap (heap.note event) :=
  of_extends (.note heap rfl : Heap.Extends (fun _ => False) (· = event) _ _)
    fun _ same => same ▸ calm

theorem trans (one : Heap.Recounts chain first second) (two : Heap.Recounts chain second third)
    (growsOne : first.Grows second) (growsTwo : second.Grows third) :
    Heap.Recounts chain first third := by
  obtain ⟨events, journal, recounted⟩ := one
  obtain ⟨later, journalLater, recountedLater⟩ := two
  have sizeOne := growsOne.size_le
  have sizeTwo := growsTwo.size_le
  refine ⟨events ++ later, by rw [journalLater, journal, List.append_assoc], ?_⟩
  have early := recounted.mono (fun _ => id) fun _ _ _ _ isSeen => isSeen.grows growsTwo
  have late := recountedLater.mono (fun _ => id) fun index front view _ isSeen =>
    isSeen.later growsOne fun other isNew => Nat.le_trans sizeOne isNew
  simp only [journal, List.append_assoc] at late
  refine (early.append late ?_).mono ?_ fun _ _ _ _ => id
  · omega
  · omega

end Heap.Recounts

namespace Container

open Running

/-- Finishing a bean ends its creation, which is noted then. -/
theorem Finishing.ending {definition : Definition} {name : String} {raw : Bean} {asked : Asked}
    {middle : Container} {result : Except BeanError Unit} {heap : Heap}
    {sees : Asked → Heap → Prop}
    (finishing : Finishing definition name raw sees asked middle result heap) :
    ∃ events, heap.journal.toList = middle.heap.journal.toList ++ events ∧
      match result with
      | .error error => Ending (fun front => middle.heap.Between raw.IsAt (fun _ => False)
            (heap.note (.abandoned name raw)) (middle.heap.journal.toList ++ front))
          middle.processors definition name raw (events ++ [.abandoned name raw]) (.error error)
      | .ok _ => Ending (fun front => middle.heap.Between raw.IsAt (fun _ => False)
            (heap.note (.committed name raw)) (middle.heap.journal.toList ++ front))
          middle.processors definition name raw (events ++ [.committed name raw]) (.ok ()) := by
  cases finishing with
  | unresolved => exact ⟨[], by simp, .unresolved⟩
  | @run supply result heap _ ran =>
      obtain ⟨events, journal, finishes⟩ :=
        finish_tells middle.processors definition name raw supply middle.heap
      rw [ran] at journal finishes
      have noted : ∀ event, Heap.Extends (fun _ => False) (fun _ => True) heap (heap.note event) :=
        fun _ => .note heap trivial
      refine ⟨events, journal, ?_⟩
      cases result with
      | error error =>
          exact .failed (finishes.mono fun _ _ isSeen => isSeen.before (noted _) fun _ _ => id)
      | ok done =>
          exact .finished (finishes.mono fun _ _ isSeen => isSeen.before (noted _) fun _ _ => id)

section Ways

variable {request : Request}
  (each : ∀ name start, Restores start (request name start).2)
  (grows : ∀ name start, Heap.Grows start.heap (request name start).2.heap)
  (recounting : ∀ name start,
    Heap.Recounts start.processors start.heap (request name start).2.heap)
include each grows recounting

theorem Asks.recounts {start final : Container} {asked : Asked}
    (asks : Asks request start asked final) :
    Heap.Recounts start.processors start.heap final.heap := by
  induction asks with
  | nil => exact .refl _
  | @cons start middle final name result asked answered rest ih =>
      have first := recounting name start
      have restores := each name start
      have growing := grows name start
      rw [answered] at first restores growing
      rw [restores.processors] at ih
      exact first.trans ih growing (rest.grows grows)

/-- A bean is constructed last, behind all beans that its arguments led to. -/
theorem Construction.recounts {definition : Definition} {name : String} {start built : Container}
    {raw : Bean} (construction : Construction request definition name start raw built) :
    ∃ record earlier, raw = .plain record ∧ record.index = earlier.contents.size ∧
      built.heap.contents.size = earlier.contents.size + 1 ∧
      start.heap.Grows earlier ∧ earlier.Grows built.heap ∧
      Heap.Recounts start.processors start.heap earlier ∧
      built.heap.journal.toList =
        earlier.journal.toList ++ [.created raw, .constructed name definition raw] := by
  cases construction with
  | @intro asked middle supply arguments cells _ asks _ _ =>
      refine ⟨_, middle.heap, rfl, rfl, ?_, asks.grows grows, ?_,
        asks.recounts each grows recounting, ?_⟩
      · simp [noted, withHeap, endConstruction, Heap.create, Heap.allocate, Heap.note]
      · exact Heap.Grows.trans (.create _ _ _ _) (.note _ _)
      · simp [noted, withHeap, endConstruction, Heap.create, Heap.allocate, Heap.note]

/-- A bean that is not entered has no further steps. -/
theorem Construction.recounts_spare {definition : Definition} {name : String}
    {start built : Container} {raw : Bean}
    (construction : Construction request definition name start raw built) :
    Heap.Recounts start.processors start.heap built.heap := by
  obtain ⟨record, earlier, rfl, isNext, size, before, growing, ⟨events, journal, recounted⟩,
    journalBuilt⟩ := construction.recounts each grows recounting
  have sizeBefore := before.size_le
  have created : Calm [Event.created (.plain record)] := by simp [Calm, Event.stage?]
  refine ⟨events ++ ([.created (.plain record)] ++
    [.constructed name definition (.plain record)]), ?_, ?_⟩
  · rw [journalBuilt, journal, List.append_assoc]
    rfl
  · have early := recounted.mono (fun _ => id) fun _ _ _ _ isSeen => isSeen.grows growing
    refine (early.append (.after_calm created (.spare name definition record)) ?_).mono ?_
      fun _ _ _ _ => id
    · omega
    · omega

/-- The course of an entered bean goes around those of the beans that are made while its fields
are resolved. -/
theorem Construction.recounts_entered {definition : Definition} {name : String}
    {start built middle : Container} {raw : Bean} {asked : Asked} {final : Heap}
    {ending : List Event} {result : Except BeanError Unit}
    (construction : Construction request definition name start raw built)
    (asks : Asks request ((built.noted (.entered name raw)).enter name raw) asked middle)
    (ends : Ending (fun front => middle.heap.Between raw.IsAt (fun _ => False) final
      (middle.heap.journal.toList ++ front)) middle.processors definition name raw ending result)
    (journal : final.journal.toList = middle.heap.journal.toList ++ ending)
    (finishing : middle.heap.Extends raw.IsAt (fun _ => True) final) :
    Heap.Recounts start.processors start.heap final := by
  have sameProcessors : middle.processors = start.processors :=
    (asks.restores each).processors.trans (construction.restores each).processors
  have sameBuilt : ((built.noted (.entered name raw)).enter name raw).processors =
      start.processors := (construction.restores each).processors
  obtain ⟨record, earlier, rfl, isNext, sizeBuilt, before, growing,
    ⟨events, journalBefore, recounted⟩, journalBuilt⟩ := construction.recounts each grows recounting
  obtain ⟨inner, journalInner, recountedInner⟩ := asks.recounts each grows recounting
  rw [sameProcessors] at ends
  rw [sameBuilt] at recountedInner
  have entered : ((built.noted (.entered name (.plain record))).enter name
      (.plain record)).heap.contents.size = earlier.contents.size + 1 := sizeBuilt
  have journalEntered : ((built.noted (.entered name (.plain record))).enter name
      (.plain record)).heap.journal.toList = start.heap.journal.toList ++ (events ++
        ([.created (.plain record)] ++ [.constructed name definition (.plain record),
          .entered name (.plain record)])) := by
    refine (noted_journal built _).trans ?_
    rw [journalBuilt, journalBefore]
    simp
  have isOwn : ∀ index, (Bean.plain record).IsAt index → index = earlier.contents.size := by
    rintro index ⟨other, isOther, rfl⟩
    cases isOther
    exact isNext
  have entering : earlier.Grows
      ((built.noted (.entered name (.plain record))).enter name (.plain record)).heap :=
    growing.trans (.note _ _)
  have developing : earlier.Grows middle.heap := entering.trans (asks.grows grows)
  have sizeBefore := before.size_le
  have sizeInner := (asks.grows grows).size_le
  have sizeFinal := finishing.size_le
  have ended : earlier.Grows final := by
    refine Heap.Extends.trans developing (finishing.mono ?_ fun _ => id)
    exact fun index isAt => Nat.le_of_eq (isOwn index isAt).symm
  have early := recounted.mono (fun _ => id) fun _ _ _ _ isSeen => isSeen.grows ended
  -- Beans that are made in between are newer than the one around them, which is finished later.
  have inside := recountedInner.mono (fun _ => id) fun index front view isMine isSeen => by
    have finished := isSeen.before finishing fun other _ isAt => by
      have isOlder := isOwn other isAt
      omega
    exact finished.later (before.trans entering) fun other isNew => by omega
  have last := ends.mono fun front view isSeen => by
    have finished : middle.heap.Between _ (· < record.index) final _ view :=
      isSeen.mono (fun _ => id) fun _ => False.elim
    exact finished.later (before.trans developing) fun other isAt => by
      have isOlder := isOwn other isAt
      omega
  simp only [journalInner, journalEntered, List.append_assoc] at inside last
  have created : Calm [Event.created (.plain record)] := by simp [Calm, Event.stage?]
  have own : Recounted (fun index front => start.heap.Between (start.heap.contents.size ≤ ·)
      (· < index) final (start.heap.journal.toList ++ (events ++ front))) start.processors _ _ :=
    .after_calm created (.around inside (by omega) last)
  refine ⟨_, ?_, (early.append own ?_).mono ?_ fun _ _ _ _ => id⟩
  · rw [journal, journalInner, journalEntered]
    simp
  · omega
  · omega

/-- Whichever way it goes, making a bean adds whole courses. -/
theorem Making.recounts {definition : Definition} {name : String} {start final : Container}
    {result : Except BeanError Handout}
    (making : Making request definition name start result final) :
    Heap.Recounts start.processors start.heap final.heap := by
  cases making with
  | busy => exact .refl _
  | unconstructed _ asks => exact asks.recounts each grows recounting
  | refused construction => exact construction.recounts_spare each grows recounting
  | shared construction =>
      exact (construction.recounts_spare each grows recounting).trans (.note _ rfl)
        (construction.grows grows).1 (.note _ _)
  | @abandoned raw built middle asked heap error construction _ asks finishing =>
      obtain ⟨events, journal, ends⟩ := finishing.ending
      have noted : Heap.Extends raw.IsAt (fun _ => True) heap (heap.note (.abandoned name raw)) :=
        .note heap trivial
      have wires := finishing.wires.mono (fun _ => id) fun _ _ => trivial
      refine construction.recounts_entered each grows recounting asks ends ?_ (wires.trans noted)
      rw [noted_journal, ← List.append_assoc, ← journal]
      rfl
  | @finished raw built middle asked heap construction _ asks finishing =>
      obtain ⟨events, journal, ends⟩ := finishing.ending
      have noted : Heap.Extends raw.IsAt (fun _ => True) heap (heap.note (.committed name raw)) :=
        .note heap trivial
      have wires := finishing.wires.mono (fun _ => id) fun _ _ => trivial
      rw [finished_heap]
      refine Heap.Recounts.trans (construction.recounts_entered each grows recounting asks ends ?_
        (wires.trans noted)) (.note _ rfl) ?_ (.note _ _)
      · rw [← List.append_assoc, ← journal]
        exact Array.toList_push
      · exact (construction.developing grows asks finishing).trans (.note _ _)

theorem Answering.recounts {name : String} {start final : Container}
    {result : Except BeanError Handout}
    (answering : Answering request name start result final) :
    Heap.Recounts start.processors start.heap final.heap := by
  cases answering with
  | cached => exact .note _ rfl
  | unknown => exact .refl _
  | made _ _ making => exact making.recounts each grows recounting

end Ways

/-- However a request ends, it adds whole courses of new beans to the journal. -/
theorem request_recounts (name : String) (start : Container) :
    Heap.Recounts start.processors start.heap (request name start).2.heap := by
  rw [request_apply]
  refine requestWithin_induct (motive := fun _ start _ final =>
    Heap.Recounts start.processors start.heap final.heap) ?_ ?_ _ name start
  · exact fun _ start => .refl start.heap
  · intro allowance recounting name start result final answering
    exact answering.recounts (requestWithin_restores allowance) (requestWithin_grows allowance)
      recounting

end Container
end BeanContainer
