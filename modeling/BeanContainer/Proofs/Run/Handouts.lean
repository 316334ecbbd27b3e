import BeanContainer.Proofs.Run.Casting

/-!
# Beans and what they can be handed out as

A cached bean and what it can be handed out as lie in two tables, and a bean in creation is handed
out with what a definition lists that is looked up anew.  Still the two never come apart: the types
are those of the definition that the bean was constructed of, or the bean was registered as a
singleton and has its own type only.
-/

namespace BeanContainer
namespace Container

/-- The bean and what it can be handed out as belong together. -/
inductive Vouches (operations : List Operation) (container : Container) (name : String) :
    Handout → Prop
  /-- The bean was constructed of this definition and no other.  If it is cached, then because it
  was made as the singleton of the definition. -/
  | constructed {definition : Definition} {bean : Bean}
      (constructed : container.Noted (.constructed name definition bean))
      (only : ∀ other known, container.Noted (.constructed other known bean) →
        other = name ∧ known = definition)
      (made : container.singletons.find? name = some bean →
        container.heap.Made name definition bean) :
      Vouches operations container name ⟨bean, definition.casts⟩
  /-- The bean was not made for the name, but registered as its singleton. -/
  | registered {bean : Bean} (given : .registerSingleton name bean ∈ operations)
      (cached : container.singletons.find? name = some bean)
      (unmade : ∀ definition, ¬ container.heap.Made name definition bean) :
      Vouches operations container name ⟨bean, Casts.identity bean.type⟩

/-- A bean was constructed for one name only, of one definition. -/
theorem Coherent.constructed_eq {container : Container} (coherent : container.Coherent)
    {name other : String} {definition known : Definition} {bean : Bean}
    (constructed : container.Noted (.constructed name definition bean))
    (constructedAgain : container.Noted (.constructed other known bean)) :
    other = name ∧ known = definition := by
  obtain ⟨record, rfl, _⟩ := coherent.placed name definition bean constructed
  obtain ⟨sameName, sameDefinition, _⟩ :=
    coherent.apart _ _ _ _ _ _ constructedAgain constructed rfl
  exact ⟨sameName, sameDefinition⟩

section Requests

variable {state : Container} {name : String} {handout : Handout}

/-- A cached bean is handed out with what it was cached with. -/
theorem request_of_cached {bean : Bean} (cached : state.singletons.find? name = some bean) :
    request name state =
      (.ok ⟨bean, state.castsOf name⟩, state.noted (.handedOut name bean)) := by
  have answering := request_cases name state
  generalize outcome : request name state = answered at answering ⊢
  obtain ⟨result, final⟩ := answered
  cases answering with
  | cached found =>
      rw [cached] at found
      cases found
      rfl
  | unknown uncached =>
      rw [cached] at uncached
      cases uncached
  | made uncached =>
      rw [cached] at uncached
      cases uncached

/-- What a request hands out is cached like this after it, or it is not cached and was constructed
of the definition that is registered for the name. -/
theorem handedOut_cases (coherent : state.Coherent) (numbered : state.registry.Numbered)
    (succeeded : (request name state).1 = .ok handout) :
    ((request name state).2.singletons.find? name = some handout.bean ∧
      (request name state).2.castsOf name = handout.casts) ∨
    (request name state).2.singletons.find? name = none ∧
      ∃ definition, (request name state).2.Noted (.constructed name definition handout.bean) ∧
        handout.casts = definition.casts := by
  have answering := request_cases name state
  rw [succeeded] at answering
  generalize (request name state).2 = final at answering ⊢
  cases answering with
  | cached found => exact .inl ⟨found, rfl⟩
  | @made definition _ _ uncached registered making =>
      cases making with
      | @shared _ present built construction pending _ =>
          have stillUncached := construction.uncached request_restores uncached
          have steps := (construction.steps request_restores request_grows request_steps numbered
            registered).1
          have coherentBuilt := steps.holds Coherent (fun step coherent => coherent.step step)
            coherent
          -- The definition that is looked up anew is the one that the bean was constructed of.
          obtain ⟨known, isKnown, constructed⟩ := coherentBuilt.defined name present pending
          rw [(construction.restores request_restores).registry, registered] at isKnown
          cases isKnown
          exact .inr ⟨stillUncached, definition, noted_iff.2 (.inl constructed), rfl⟩
      | @finished raw built middle asked heap construction _ asks finishing =>
          cases scope : definition.scope with
          | singleton =>
              refine .inl ⟨keep_singletons_self raw scope, ?_⟩
              have found := @keep_casts_self ((middle.withHeap heap).leave name) definition name raw
                scope
              exact congrArg (Option.getD · Casts.empty) found
          | prototype =>
              have stillUncached : middle.singletons.find? name = none :=
                asks.uncached request_restores (construction.uncached request_restores uncached)
              refine .inr ⟨?_, definition, ?_, rfl⟩
              · show (((middle.withHeap heap).leave name).keep definition name raw).singletons.find?
                  name = none
                simp only [keep, scope]
                exact stillUncached
              · obtain ⟨_, noted, member⟩ := construction.noted.1
                have constructed : built.Noted (.constructed name definition raw) := by
                  rw [Noted, noted]
                  exact List.mem_append_right _ member
                have developing := (asks.grows_entered request_grows).mem_journal constructed
                rw [Noted, finished_heap]
                simpa [Heap.note] using finishing.wires.mem_journal developing

namespace CastsExplained

variable {operations : List Operation} (explained : state.CastsExplained operations)
  (coherent : state.Coherent) (numbered : state.registry.Numbered)
include explained coherent numbered

/-- What a request hands out belongs together. -/
theorem vouches (succeeded : (request name state).1 = .ok handout) :
    (request name state).2.Vouches operations name handout := by
  obtain ⟨later, coherentLater⟩ :=
    explained.steps coherent (request_steps name state numbered).1
  have cases := handedOut_cases coherent numbered succeeded
  generalize (request name state).2 = final at later coherentLater cases ⊢
  obtain ⟨bean, casts⟩ := handout
  rcases cases with ⟨cached, isCasts⟩ | ⟨uncached, definition, constructed, isCasts⟩
  · have castsOf : ∀ {known}, final.casts.find? name = some known → casts = known := by
      intro known found
      exact isCasts.symm.trans (by simp [Container.castsOf, found])
    by_cases isMade : ∃ definition, final.heap.Made name definition bean
    · obtain ⟨definition, made⟩ := isMade
      rw [castsOf (later.made name definition bean made).2]
      exact .constructed made.constructed
        (fun _ _ => coherentLater.constructed_eq made.constructed) fun _ => made
    · rcases later.origin name bean cached with made | ⟨given, isIdentity⟩
      · exact absurd made isMade
      · rw [castsOf isIdentity]
        exact .registered given cached fun definition made => isMade ⟨definition, made⟩
  · simp only [] at isCasts constructed
    subst isCasts
    refine .constructed constructed (fun _ _ => coherentLater.constructed_eq constructed) ?_
    intro cached
    rw [uncached] at cached
    cases cached

/-- A bean that is handed out can be cast to the types that it is handed out as, and to no other
one. -/
theorem cast?_handout (succeeded : (request name state).1 = .ok handout) (target : TypeName) :
    handout.casts.cast? handout.bean target =
      if handout.casts.supports target then some (.ofBean target handout.bean) else none := by
  have vouches := explained.vouches coherent numbered succeeded
  have isSource : handout.bean.type = handout.casts.source := by
    cases vouches with
    | @constructed definition bean constructed =>
        obtain ⟨later, _⟩ := explained.steps coherent (request_steps name state numbered).1
        obtain ⟨itself, isType, _⟩ := later.constructed name definition bean constructed
        exact isType.trans itself.source.symm
    | registered => rfl
  simp [Casts.cast?, isSource]

end CastsExplained

/-- Seen as one of its types or not, a bean is requested in the same way. -/
theorem requestAs_state (name : String) (target : TypeName) (state : Container) :
    (requestAs name target state).2 = (request name state).2 := by
  have asks := requestAs_asks name target state
  cases asks with
  | cons answered rest =>
      cases rest
      rw [answered]

/-- A bean that is handed out is seen as the type, or the cast is reported to fail. -/
theorem requestAs_of_ok (target : TypeName) (succeeded : (request name state).1 = .ok handout) :
    (requestAs name target state).1 =
      match handout.casts.cast? handout.bean target with
      | some value => .ok value
      | none => .error (.cast name target.text) := by
  unfold requestAs
  rw [Running.bind_apply]
  generalize request name state = answered at succeeded ⊢
  obtain ⟨result, final⟩ := answered
  cases succeeded
  simp only []
  cases handout.casts.cast? handout.bean target with
  | none => rfl
  | some value => rfl

end Requests

/-! ## Runs -/

/-- No operation replaces a cached bean, or what it can be handed out as. -/
theorem run_retains {container : Container} (operations : List Operation) {name : String}
    {bean : Bean} (cached : container.singletons.find? name = some bean) :
    (container.run operations).singletons.find? name = some bean ∧
      (container.run operations).castsOf name = container.castsOf name := by
  have kept : (container.run operations).singletons.find? name = some bean ∧
      (container.run operations).casts.find? name = container.casts.find? name := by
    refine run_holds (fun later => later.singletons.find? name = some bean ∧
      later.casts.find? name = container.casts.find? name) ⟨cached, rfl⟩ ?_
    intro operation _ before after effect ⟨found, casts⟩
    cases effect with
    | refused => exact ⟨found, casts⟩
    | registers => exact ⟨found, casts⟩
    | removes => exact ⟨found, casts⟩
    | configures => exact ⟨found, casts⟩
    | @caches added given _ free =>
        have differs : name ≠ added := by
          rintro rfl
          rw [free] at found
          cases found
        exact ⟨Table.find?_insert_of_absent given free found,
          (Table.find?_insert_of_ne _ _ differs).trans casts⟩
    | asks asks =>
        obtain ⟨stays, same⟩ := (asks.restores request_restores).retains name bean found
        exact ⟨stays, same.trans casts⟩
  exact ⟨kept.1, congrArg (Option.getD · Casts.empty) kept.2⟩

/-- In every state that follows a run by steps, the journal is a ledger and it is explained what
cached beans can be handed out as. -/
theorem Steps.explained {properties : PropertyStore} {operations : List Operation}
    {state : Container} (steps : Steps ((new properties).run operations) state) :
    state.CastsExplained operations ∧ state.Coherent ∧ state.registry.Numbered := by
  have sound := run_sound properties operations
  obtain ⟨explained, coherent⟩ :=
    (run_castsExplained properties operations).steps sound.coherent steps
  exact ⟨explained, coherent, steps.holds (fun container => container.registry.Numbered)
    (fun step numbered => step.registry ▸ numbered) sound.numbered⟩

/-- In every state after a run, and inside of every request that follows it, what is handed out
belongs together, and the bean can be cast to the types that it is handed out as and to no other.
So a request for a cached bean as one of its types gives the same answer for the rest of the run,
and whether the cast fails or not, it does to the container what a request for the bean does. -/
theorem run_vouches (properties : PropertyStore) (operations : List Operation) :
    (∀ state, Within ((new properties).run operations) state → ∀ name handout,
      (request name state).1 = .ok handout →
        (request name state).2.Vouches operations name handout ∧
        ∀ target, handout.casts.cast? handout.bean target =
          if handout.casts.supports target then some (.ofBean target handout.bean) else none) ∧
    (∀ earlier later, operations = earlier ++ later → ∀ name bean,
      ((new properties).run earlier).singletons.find? name = some bean → ∀ target,
        (requestAs name target ((new properties).run operations)).1 =
          (requestAs name target ((new properties).run earlier)).1 ∧
        (requestAs name target ((new properties).run earlier)).1 =
          if (((new properties).run earlier).castsOf name).supports target then
            .ok (.ofBean target bean)
          else .error (.cast name target.text)) ∧
    ∀ name target state, (requestAs name target state).2 = (request name state).2 := by
  have answers : ∀ earlier name bean target,
      ((new properties).run earlier).singletons.find? name = some bean →
        (requestAs name target ((new properties).run earlier)).1 =
          if (((new properties).run earlier).castsOf name).supports target then
            .ok (.ofBean target bean)
          else .error (.cast name target.text) := by
    intro earlier name bean target cached
    have sound := run_sound properties earlier
    have succeeded := congrArg Prod.fst (request_of_cached cached)
    have casts := (run_castsExplained properties earlier).cast?_handout sound.coherent
      sound.numbered succeeded target
    rw [requestAs_of_ok target succeeded, casts]
    cases (((new properties).run earlier).castsOf name).supports target with
    | true => rfl
    | false => rfl
  refine ⟨?_, ?_, requestAs_state⟩
  · intro state within name handout succeeded
    obtain ⟨explained, coherent, numbered⟩ :=
      (within.steps (run_sound properties operations).numbered).explained
    exact ⟨explained.vouches coherent numbered succeeded,
      explained.cast?_handout coherent numbered succeeded⟩
  · intro earlier later split name bean cached target
    subst split
    obtain ⟨stays, sameCasts⟩ := run_retains later cached
    rw [← run_append] at stays sameCasts
    refine ⟨?_, answers earlier name bean target cached⟩
    rw [answers earlier name bean target cached, answers _ name bean target stays, sameCasts]

/-- The definition of the cached pen is removed, and its name goes to radios. -/
def replacedPen : List Operation :=
  cachedPen ++ [.remove "Pen", .register "Pen" { type := ⟨"Radio"⟩ }]

/-- The pen that is still cached is handed out as a tool, and not as a radio. -/
theorem replacedPen_vouches :
    ∃ bean, ((new {}).run cachedPen).singletons.find? "Pen" = some bean ∧
      (requestAs "Pen" ⟨"Tool"⟩ ((new {}).run replacedPen)).1 = .ok (.ofBean ⟨"Tool"⟩ bean) ∧
      (requestAs "Pen" ⟨"Radio"⟩ ((new {}).run replacedPen)).1 =
        .error (.cast "Pen" "Radio") := by
  have isCached : (((new {}).run cachedPen).singletons.find? "Pen").isSome = true := by
    decide +kernel
  have isTool : (((new {}).run cachedPen).castsOf "Pen").supports ⟨"Tool"⟩ = true := by
    decide +kernel
  have noRadio : (((new {}).run cachedPen).castsOf "Pen").supports ⟨"Radio"⟩ = false := by
    decide +kernel
  obtain ⟨bean, cached⟩ := Option.isSome_iff_exists.1 isCached
  have answers := (run_vouches {} replacedPen).2.1 cachedPen _ rfl "Pen" bean cached
  have asTool := answers ⟨"Tool"⟩
  have asRadio := answers ⟨"Radio"⟩
  rw [isTool] at asTool
  rw [noRadio] at asRadio
  exact ⟨bean, cached, asTool.1.trans asTool.2, asRadio.1.trans asRadio.2⟩

end Container
end BeanContainer
