import BeanContainer.Proofs.Heap.Finishing
import BeanContainer.Proofs.Request.Fulfillment
import BeanContainer.Proofs.Request.Population

/-!
# Requests that succeed

If everything can be resolved, each request that is ready is fulfilled.  The arguments of its
constructor are resolved first, and the new bean is wired there; then its fields are resolved
and can be written, since their cells are unset and lie apart, and the finished bean is complete.
A bean that was made for a name in creation is given up, but then the name lies on a cycle.
-/

namespace BeanContainer
namespace Container

/-- A bean was made for the name and is the newest record.  It is wired at the arguments of its
constructor, and it is not owned yet. -/
structure Constructed (base : Container) (definition : Definition) (name : String)
    (start built : Container) (record : Record) : Prop where
  type : record.type = definition.type
  inside : record.index < built.heap.contents.size
  isNew : ∀ other second, built.Owns other (.plain second) → record.index ≠ second.index
  harmless : (Bean.plain record).Harmless
  original : record.capabilities.original.isSome → base.HasOriginals
  arguments : ∀ index, definition.IsWired base.registry base.properties (Provides base built)
    (built.heap.read record) (.argument index)
  covered : ∀ next, base.registry.DependsByArgument name next → Covered base built next
  introduces : Introduces base start built (· = name)
  keeps : Keeps base start built
  consistent : Consistent base built
  counted : ∀ other, base.IsSingleton other → ¬ base.OnCycle other →
    built.heap.constructions other = base.heap.constructions other +
      (if built.IsOwned other then 1 else 0) + if name = other then 1 else 0

namespace Constructed

variable {base start built : Container} {definition : Definition} {name : String}
  {record : Record} (constructed : Constructed base definition name start built record)
include constructed

/-- The bean is entered for its name. -/
theorem enter (registered : base.registry.find? name = some definition)
    (fresh : built.inCreation.find? name = none) :
    Consistent base ((built.noted (.entered name (.plain record))).enter name (.plain record)) :=
  (constructed.consistent.noted _).enter registered fresh constructed.type constructed.harmless
    constructed.inside constructed.isNew

/-- A bean is owned as soon as it is entered, so it counts. -/
theorem counted_entered (fresh : built.inCreation.find? name = none)
    (uncached : built.singletons.find? name = none) :
    Counted base ((built.noted (.entered name (.plain record))).enter name (.plain record)) := by
  intro other singleton offCycle
  refine (built.heap.constructions_note (.entered name (.plain record)) other).trans ?_
  rw [constructed.counted other singleton offCycle]
  by_cases same : name = other
  · subst same
    have unowned : ¬ built.IsOwned name := by simp [IsOwned, fresh, uncached]
    have owned : ((built.noted (.entered name (.plain record))).enter name
        (.plain record)).IsOwned name := by simp [IsOwned, Container.enter]
    simp [unowned, owned, Event.constructs]
  · have owned : ((built.noted (.entered name (.plain record))).enter name
        (.plain record)).IsOwned other ↔ built.IsOwned other := by
      simp [IsOwned, Container.enter, noted, withHeap, Table.find?_insert_of_ne _ _ (Ne.symm same)]
    simp [owned, same, Event.constructs]

/-- A bean that is given up does not count if its name lies on a cycle. -/
theorem counted_shared (onCycle : base.OnCycle name) : Counted base built := by
  intro other singleton offCycle
  have differs : name ≠ other := fun same => offCycle (same ▸ onCycle)
  rw [constructed.counted other singleton offCycle, if_neg differs]
  rfl

end Constructed

/-- The bean in creation is complete and was processed. -/
structure Developed (base : Container) (definition : Definition) (name : String)
    (start state : Container) (record : Record) : Prop where
  creating : state.inCreation.find? name = some (.plain record)
  uncached : state.singletons.find? name = none
  complete : Complete base state definition name record
  introduces : Introduces base start state (· = name)
  keeps : Keeps base start state
  consistent : Consistent base state
  counted : Counted base state

/-- The request for a bean that was developed is fulfilled. -/
theorem Developed.fulfilled {base start state : Container} {definition : Definition}
    {name : String} {record : Record} (registered : base.registry.find? name = some definition)
    (developed : Developed base definition name start state record) :
    Fulfilled base [(name, .ok ⟨.plain record, definition.casts⟩)] start
      ((((state.leave name).keep definition name (.plain record)).noted
        (.committed name (.plain record))).noted (.handedOut name (.plain record))) := by
  have keeps : Keeps base state ((((state.leave name).keep definition name (.plain record)).noted
      (.committed name (.plain record))).noted (.handedOut name (.plain record))) :=
    .finish registered developed.uncached developed.creating
  have finished := developed.consistent.finish registered developed.uncached developed.creating
    developed.complete
  have counted : Counted base ((state.leave name).keep definition name (.plain record)) := by
    refine developed.counted.congr ?_ fun _ =>
      isOwned_finish registered developed.uncached developed.creating
    intro other
    rw [keep_heap]
    rfl
  refine .single ⟨definition, registered, rfl, developed.complete.type⟩
    developed.complete.harmless ?_ ?_ ?_ (developed.keeps.trans keeps) ((finished.noted _).noted _)
    ((counted.noted fun _ => rfl).noted fun _ => rfl)
  · exact fun singleton => keeps name _ singleton (.inr developed.creating)
  · cases scope : definition.scope with
    | singleton =>
        have singleton : base.IsSingleton name := ⟨definition, registered, scope⟩
        exact .owned singleton (keeps name _ singleton (.inr developed.creating))
    | prototype =>
        exact .prototype ⟨definition, registered, scope⟩ fun next depends =>
          (developed.complete.covered next depends).mono keeps
  · intro other bean found absent
    rcases of_keep_singletons found with ⟨same, _⟩ | before
    · exact ⟨name, rfl, same ▸ .refl⟩
    · exact developed.introduces other bean before absent

section Ways

variable {base start : Container} {name : String} {definition : Definition}
  (resolvable : base.Resolvable)
  (inner : ∀ other middle, Nested request name start middle →
    Fulfills base other middle (request other middle).1 (request other middle).2)
  (registered : base.registry.find? name = some definition)
  (consistent : Consistent base start) (counted : Counted base start)
  (ready : Ready base start name)
include resolvable inner registered consistent counted ready

/-! ## Constructing a bean -/

/-- The arguments of a constructor can be resolved. -/
theorem Asks.resolves_arguments {middle : Container} {asked : Asked}
    {result : Except BeanError Supply}
    (asks : Asks request (start.beginConstruction name) asked middle)
    {sees : Asked → Heap → Prop}
    (gathers : Gathers start.registry start.properties sees definition.recipe.points .empty asked
      result) :
    Fulfilled base asked (start.beginConstruction name) middle ∧
      ∃ supply, result = .ok supply ∧
        Resolved base middle definition.recipe.points supply := by
  rw [consistent.registry, consistent.properties] at gathers
  obtain ⟨declaration, declared, _⟩ := resolvable.declared name definition registered
  have numbered := Declaration.numbered_of_define declared
  have unchanged : Heap.Extends (fun _ => False) (fun _ => True) start.heap start.heap := .refl _
  have began : Consistent base (start.beginConstruction name) :=
    consistent.extend unchanged rfl consistent.harmless (fun _ _ _ => not_false)
      (name :: start.constructing)
  have isRegistered : start.registry.find? name = some definition := by
    rw [consistent.registry]
    exact registered
  refine asks.resolves resolvable registered (fun point => List.mem_append_left _)
    numbered.points_ascending gathers ?_ began counted ?_
  · exact fun before reached asks other =>
      inner other reached (.constructing isRegistered (ready.idle resolvable) asks)
  · exact fun point isPoint next leads =>
      ready.beginConstruction ⟨definition, registered, point, isPoint, leads⟩

/-- A bean that was constructed is wired at its arguments and does not fail its callback. -/
theorem Construction.constructed {built : Container} {raw : Bean}
    (construction : Construction request definition name start raw built) :
    ∃ record, raw = .plain record ∧ Constructed base definition name start built record := by
  obtain ⟨declaration, declared, _⟩ := resolvable.declared name definition registered
  cases construction with
  | @intro asked middle supply arguments cells _ asks gathers yields =>
      obtain ⟨fulfilled, _, isOk, resolved⟩ :=
        asks.resolves_arguments resolvable inner registered consistent counted ready gathers
      cases isOk
      have extended : Heap.Extends (fun _ => False) (fun _ => True) middle.heap
          ((middle.heap.create definition.type arguments cells).2.note
            (.constructed name definition
              (middle.heap.create definition.type arguments cells).1)) :=
        .trans (.create _ _ _ _ fun _ => trivial) (.note _ trivial)
      have isRead := Heap.read_create
        (rfl : (middle.heap.create definition.type arguments cells).1 = .plain _)
      have keeps : Keeps base middle
          (((middle.withHeap (middle.heap.create definition.type arguments cells).2).endConstruction
            name).noted (.constructed name definition
              (middle.heap.create definition.type arguments cells).1)) := .refl base middle
      have wired : ∀ index, definition.IsWired base.registry base.properties (Provides base middle)
          { arguments, cells := Table.ofList cells } (.argument index) :=
        .of_yields declared yields resolved.takes
      have behaves : middle.heap.behaviour definition.type =
          base.heap.behaviour definition.type := by
        rw [Heap.behaviour, fulfilled.consistent.behaviours]
        rfl
      have created : base.HasOriginals →
          (middle.heap.create definition.type arguments cells).2.Harmless := by
        intro originals
        apply (fulfilled.consistent.harmless originals).create
        apply resolvable.presets originals name definition registered supply arguments cells yields
        intro point isPoint
        obtain ⟨value, supplied, takes⟩ := resolved.takes point isPoint
        exact ⟨value, supplied, takes.mono fun _ _ provides =>
          ⟨provides.types, provides.harmless⟩⟩
      refine ⟨_, rfl, ?_⟩
      exact {
        type := rfl
        inside := by simp [noted, withHeap, endConstruction, Heap.create, Heap.allocate, Heap.note]
        isNew := fun _ _ owns => Nat.ne_of_gt (fulfilled.consistent.inside owns)
        harmless := resolvable.harmless_create registered behaves arguments cells
        original := fun isOriginal => ⟨name, definition, registered, behaves ▸ isOriginal⟩
        arguments := fun index => (wired index).mono keeps.provides
          (congrArg (fun contents : Contents => contents.at? (.argument index)) isRead)
        covered := by
          rintro next ⟨other, isOther, point, isPoint, leads⟩
          rw [registered] at isOther
          cases isOther
          exact (resolved.mono keeps).covered point isPoint next leads
        introduces := by
          refine fulfilled.introduces_for fun entry isEntry => ?_
          obtain ⟨point, isPoint, leads⟩ := gathers.leadsTo isEntry
          rw [consistent.registry] at leads
          exact .inl ⟨definition, registered, point, isPoint, leads⟩
        keeps := fulfilled.keeps
        consistent := fulfilled.consistent.extend extended rfl
          (fun originals => (created originals).of_sameChains (.note _ _))
          (fun _ _ _ => not_false)
          (middle.constructing.erase name)
        counted := by
          intro other singleton offCycle
          refine (Heap.constructions_create middle.heap _ _ _ name definition _ other).trans ?_
          rw [fulfilled.counted other singleton offCycle]
          rfl }

/-! ## Developing a bean -/

omit counted in
/-- The fields of a bean that was entered can be resolved. -/
theorem Construction.resolves_fields {built middle : Container} {record : Record} {asked : Asked}
    {result : Except BeanError Supply} (uncached : start.singletons.find? name = none)
    (construction : Construction request definition name start (.plain record) built)
    (constructed : Constructed base definition name start built record)
    (fresh : built.inCreation.find? name = none)
    (asks : Asks request ((built.noted (.entered name (.plain record))).enter name (.plain record))
      asked middle)
    {sees : Asked → Heap → Prop}
    (gathers : Gathers middle.registry middle.properties sees definition.fields .empty asked
      result) :
    Fulfilled base asked
        ((built.noted (.entered name (.plain record))).enter name (.plain record)) middle ∧
      ∃ supply, result = .ok supply ∧ Resolved base middle definition.fields supply := by
  obtain ⟨declaration, declared, _⟩ := resolvable.declared name definition registered
  have ascending := (Field.points_numbered (Declaration.points_of_define declared)).2
  have made := construction.restores request_restores
  have entered := constructed.enter registered fresh
  have asking := asks.restores request_restores
  have counting := constructed.counted_entered fresh
    (construction.uncached request_restores uncached)
  rw [asking.registry, asking.properties, entered.registry, entered.properties] at gathers
  have isRegistered : start.registry.find? name = some definition := by
    rw [consistent.registry]
    exact registered
  have isReady : Ready base (built.noted (.entered name (.plain record))) name :=
    ready.congr made.constructing made.inCreation
  refine asks.resolves resolvable registered (fun point => List.mem_append_right _) ascending
    gathers ?_ entered counting ?_
  · exact fun before reached asks other =>
      inner other reached (.creating isRegistered construction fresh asks)
  · exact fun point isPoint next leads =>
      isReady.enter (.plain record) (.inr ⟨definition, registered, point, isPoint, leads⟩)

omit inner consistent counted ready in
/-- A bean whose fields were resolved can be finished. -/
theorem Constructed.finishes {built middle : Container} {record : Record} {asked : Asked}
    {supply : Supply} (constructed : Constructed base definition name start built record)
    (construction : Construction request definition name start (.plain record) built)
    (asks : Asks request ((built.noted (.entered name (.plain record))).enter name (.plain record))
      asked middle)
    (consistent : Consistent base middle)
    (resolved : Resolved base middle definition.fields supply) :
    ∃ heap, finish base.processors definition name (.plain record) supply middle.heap =
      (.ok (), heap) ∧ heap.behaviours = middle.heap.behaviours ∧
        (base.HasOriginals → heap.Harmless) := by
  obtain ⟨declaration, declared, distinct, left⟩ :=
    resolvable.declared name definition registered
  have points := Declaration.points_of_define declared
  have asking := asks.grows_entered request_grows
  have stillInside : record.index <
      (middle.heap.note (.resolved name (.plain record))).contents.size :=
    Nat.lt_of_lt_of_le constructed.inside asking.size_le
  have fits : ∀ point ∈ definition.fields, ∃ cell, point.cell = some cell ∧
      cell.owner = record.type ∧ ((middle.heap.note (.resolved name (.plain record))).read
        record).cells.find? cell.name = none := by
    intro point isPoint
    obtain ⟨field, isField, isCell, _⟩ := Field.of_mem_points points isPoint
    refine ⟨_, isCell, ?_, construction.unset asks (left field isField _)⟩
    rw [constructed.type, (Declaration.type_of_define declared).1]
  have typed : ∀ point ∈ definition.fields, ∀ value, supply.find? point.index = some value →
      value.type = point.type := by
    intro point isPoint value supplied
    obtain ⟨_, _, _, type⟩ := Field.of_mem_points points isPoint
    rw [(resolved.takes_of_find? isPoint supplied).type_eq, type]
  obtain ⟨rest, written, wrote⟩ :=
    Supply.write_ok stillInside fits (Field.points_apart points distinct) typed
  have distinctPoints : definition.fields.Pairwise fun point other => point.index ≠ other.index :=
    (Field.points_numbered points).2.imp Nat.ne_of_lt
  have writes : Heap.Writes (.plain record) definition.fields supply
      (middle.heap.note (.resolved name (.plain record))) written :=
    Supply.writes_of_write distinctPoints stillInside wrote
  have harmless : base.HasOriginals → written.Harmless := fun originals =>
    resolved.harmless ((consistent.harmless originals).of_sameChains (.note _ _)) writes
  obtain ⟨final, isFinal, behaviours, chains⟩ :=
    finish_ok resolvable.unprocessed wrote (constructed.harmless.startsWell_plain
      fun isOriginal => harmless (constructed.original isOriginal))
  exact ⟨final, isFinal, behaviours, fun originals =>
    (harmless originals).of_sameChains chains⟩

omit inner consistent counted ready in
/-- A bean that could be finished is complete. -/
theorem Constructed.complete {built middle : Container} {record : Record} {asked : Asked}
    {supply : Supply} {chain : Chain} {heap : Heap}
    (constructed : Constructed base definition name start built record)
    (asks : Asks request ((built.noted (.entered name (.plain record))).enter name (.plain record))
      asked middle)
    (keeps : Keeps base built middle) (resolved : Resolved base middle definition.fields supply)
    (ran : finish chain definition name (.plain record) supply middle.heap = (.ok (), heap)) :
    Complete base (middle.withHeap heap) definition name record := by
  obtain ⟨declaration, declared, _⟩ := resolvable.declared name definition registered
  have ascending := (Field.points_numbered (Declaration.points_of_define declared)).2
  have wires := finish_wires chain definition name (.plain record) supply middle.heap
  rw [ran] at wires
  have asking := asks.grows_entered request_grows
  have stillInside := Nat.lt_of_lt_of_le constructed.inside asking.size_le
  have sameArguments : (heap.read record).arguments = (built.heap.read record).arguments :=
    (wires.grows.read_arguments stillInside).trans (asking.read_arguments constructed.inside)
  have keepsLater : Keeps base built (middle.withHeap heap) := keeps
  have sameOwners : Keeps base middle (middle.withHeap heap) := .refl base middle
  have resolvedLater := resolved.mono sameOwners
  refine ⟨constructed.type, constructed.harmless,
    Nat.lt_of_lt_of_le stillInside wires.grows.size_le, ?_, ?_⟩
  · intro place
    cases place with
    | argument index =>
        exact (constructed.arguments index).mono keepsLater.provides
          (congrArg (fun arguments : List Value => arguments[index]?) sameArguments)
    | cell cell =>
        rintro point ⟨isPoint, isOn⟩
        obtain ⟨value, supplied, takes⟩ := resolvedLater.takes point isPoint
        refine ⟨value, takes, .inl ?_⟩
        exact (finish_fills ascending stillInside ran cell value).2
          (.inr ⟨point, isPoint, isOn, supplied⟩)
  · intro next depends
    rcases depends with byArgument | ⟨other, isOther, point, isPoint, leads⟩
    · exact (constructed.covered next byArgument).mono keepsLater
    · rw [registered] at isOther
      cases isOther
      exact resolvedLater.covered point isPoint next leads

omit counted in
/-- An entered bean is developed without a failure. -/
theorem Construction.succeeds {built middle : Container} {record : Record} {asked : Asked}
    {result : Except BeanError Unit} {heap : Heap}
    (uncached : start.singletons.find? name = none)
    (construction : Construction request definition name start (.plain record) built)
    (constructed : Constructed base definition name start built record)
    (fresh : built.inCreation.find? name = none)
    (asks : Asks request ((built.noted (.entered name (.plain record))).enter name (.plain record))
      asked middle)
    {sees : Asked → Heap → Prop}
    (finishing : Finishing definition name (.plain record) sees asked middle result heap) :
    result = .ok () ∧ Developed base definition name start (middle.withHeap heap) record := by
  have asking := asks.restores request_restores
  have creating : middle.inCreation.find? name = some (.plain record) := by
    rw [asking.inCreation]
    exact Table.find?_insert_self _ _ _
  have stillUncached : middle.singletons.find? name = none :=
    asks.uncached request_restores (construction.uncached request_restores uncached)
  have wires := finishing.wires
  cases finishing with
  | unresolved gathers =>
      obtain ⟨_, _, isOk, _⟩ := construction.resolves_fields resolvable inner registered consistent
        ready uncached constructed fresh asks gathers
      cases isOk
  | run gathers ran =>
      obtain ⟨fulfilled, supply, isOk, resolved⟩ := construction.resolves_fields resolvable inner
        registered consistent ready uncached constructed fresh asks gathers
      cases isOk
      have keeps : Keeps base built middle :=
        Keeps.trans (Keeps.enter fresh : Keeps base built (built.enter name (.plain record)))
          fulfilled.keeps
      obtain ⟨finished, isFinished, behaviours, harmless⟩ := constructed.finishes resolvable
        registered construction asks fulfilled.consistent resolved
      rw [fulfilled.consistent.processors, isFinished] at ran
      cases ran
      refine ⟨rfl, creating, stillUncached,
        constructed.complete resolvable registered asks keeps resolved isFinished, ?_,
        constructed.keeps.trans keeps, ?_, ?_⟩
      · have later : Introduces base built (middle.withHeap heap) (· = name) := by
          refine fulfilled.introduces_for fun entry isEntry => ?_
          obtain ⟨point, isPoint, leads⟩ := gathers.leadsTo isEntry
          rw [fulfilled.consistent.registry] at leads
          exact .inr ⟨definition, registered, point, isPoint, leads⟩
        exact constructed.introduces.trans later
      · refine fulfilled.consistent.extend wires behaviours harmless ?_ middle.constructing
        rintro other second cached ⟨_, isRecord, same⟩
        cases isRecord
        have isName := fulfilled.consistent.apart name other record second (.inr creating)
          (.inl cached) same
        rw [isName, cached] at stillUncached
        cases stillUncached
      · exact fulfilled.counted.congr wires.constructions fun _ _ => Iff.rfl

/-! ## Answering a request -/

/-- Making a bean fulfills the request for it. -/
theorem Making.fulfilled {final : Container} {result : Except BeanError Handout}
    (uncached : start.singletons.find? name = none)
    (making : Making request definition name start result final) :
    Fulfilled base [(name, result)] start final := by
  cases making with
  | busy isMarked => exact absurd isMarked (ready.idle resolvable)
  | unconstructed _ asks spoiled =>
      cases spoiled with
      | unresolved gathers =>
          obtain ⟨_, _, isOk, _⟩ :=
            asks.resolves_arguments resolvable inner registered consistent counted ready gathers
          cases isOk
      | @refused _ supply method inputs _ gathers recipe fails =>
          obtain ⟨_, _, isOk, resolved⟩ :=
            asks.resolves_arguments resolvable inner registered consistent counted ready gathers
          cases isOk
          obtain ⟨results, succeeds⟩ :=
            resolvable.constructors name definition method inputs registered recipe supply
              fun point isPoint => by
                obtain ⟨value, supplied, takes⟩ := resolved.takes point isPoint
                exact ⟨value, supplied, takes.mono fun _ _ provides => provides.types⟩
          rw [fails] at succeeds
          cases succeeds
  | refused construction pending scope =>
      rw [(construction.restores request_restores).inCreation] at pending
      have marked : start.inCreation.find? name ≠ none := by
        rw [pending]
        nofun
      exact absurd ⟨definition, registered, scope⟩
        (not_isPrototype (ready.onCycle resolvable marked).1)
  | @shared raw present built construction pending scope =>
      obtain ⟨record, rfl, constructed⟩ :=
        construction.constructed resolvable inner registered consistent counted ready
      obtain ⟨known, other, isKnown, rfl, type, harmless, _⟩ :=
        constructed.consistent.creating name present pending
      rw [registered] at isKnown
      cases isKnown
      have marked : start.inCreation.find? name ≠ none := by
        rw [← (construction.restores request_restores).inCreation, pending]
        nofun
      obtain ⟨singleton, onCycle⟩ := ready.onCycle resolvable marked
      have owns : (built.noted (.handedOut name (.plain other))).Owns name (.plain other) :=
        .inr pending
      exact .single ⟨definition, registered, rfl, type⟩ harmless (fun _ => owns)
        (.owned singleton owns) constructed.introduces constructed.keeps (constructed.consistent.noted _)
        ((constructed.counted_shared onCycle).noted fun _ => rfl)
  | abandoned construction fresh asks finishing =>
      obtain ⟨record, rfl, constructed⟩ :=
        construction.constructed resolvable inner registered consistent counted ready
      obtain ⟨isOk, _⟩ := construction.succeeds resolvable inner registered consistent
        ready uncached constructed fresh asks finishing
      cases isOk
  | finished construction fresh asks finishing =>
      obtain ⟨record, rfl, constructed⟩ :=
        construction.constructed resolvable inner registered consistent counted ready
      obtain ⟨_, developed⟩ := construction.succeeds resolvable inner registered consistent
        ready uncached constructed fresh asks finishing
      exact developed.fulfilled registered

end Ways

/-- Whichever way it is answered, a request is fulfilled. -/
theorem Answering.fulfills {base start final : Container} {name : String}
    {result : Except BeanError Handout} (resolvable : base.Resolvable)
    (inner : ∀ other middle, Nested request name start middle →
      Fulfills base other middle (request other middle).1 (request other middle).2)
    (answering : Answering request name start result final) :
    Fulfills base name start result final := by
  rintro consistent counted ready ⟨definition, registered⟩
  cases answering with
  | @cached bean found =>
      obtain ⟨known, record, isKnown, scope, casts, rfl, complete⟩ :=
        consistent.cached name bean found
      have sameCasts : start.castsOf name = known.casts := by
        rw [castsOf, casts]
        rfl
      have owns : (start.noted (.handedOut name (.plain record))).Owns name (.plain record) :=
        .inl found
      exact .single ⟨known, isKnown, sameCasts, complete.type⟩ complete.harmless (fun _ => owns)
        (.owned ⟨known, isKnown, scope⟩ owns) (.of_singletons rfl) (.refl base start)
        (consistent.noted _) (counted.noted fun _ => rfl)
  | unknown _ unregistered =>
      rw [consistent.registry, registered] at unregistered
      cases unregistered
  | made uncached isKnown making =>
      rw [consistent.registry] at isKnown
      exact making.fulfilled resolvable inner isKnown consistent counted ready uncached

/-- If everything can be resolved, requests that are ready are fulfilled. -/
theorem request_fulfills {base : Container} (resolvable : base.Resolvable) (name : String)
    (start : Container) :
    Fulfills base name start (request name start).1 (request name start).2 :=
  request_induct (motive := Fulfills base)
    (fun _ _ _ _ answering inner => answering.fulfills resolvable inner) name start

end Container
end BeanContainer
