import BeanContainer.Proofs.Request.Failures
import BeanContainer.Proofs.Run.Injection
import BeanContainer.Proofs.Run.Origin
import BeanContainer.Proofs.Run.Population

/-!
# What candidates are handed out as

The candidates for a type are found among the registered definitions, but a cached bean is handed
out without a look at them, as one of the types it was cached with.  Both agree on a name if the
container made its cached bean of a definition that lists the type.  They need not agree if the
bean was registered as a singleton, or if its definition was removed and another one took its name.
-/

namespace BeanContainer
namespace Container

/-! ## What a candidate is handed out as -/

/-- If a bean is cached under the name, it is of the type, or the container made it of a definition
that lists the type. -/
def Backs (container : Container) (name : String) (type : TypeName) : Prop :=
  ∀ bean, container.singletons.find? name = some bean → bean.type = type ∨
    ∃ definition, container.heap.Made name definition bean ∧ definition.isAssignableTo type = true

section Steps

variable {before after : Container} {name : String} {type : TypeName}

/-- What a step caches under a candidate's name backs the candidate. -/
theorem Backs.step (step : Step before after) (coherent : before.Coherent)
    (candidate : name ∈ (before.registry.candidates type).all) (backs : before.Backs name type) :
    after.Backs name type := by
  intro bean cached
  rcases step.cached coherent cached with earlier | ⟨definition, registered, made⟩
  · rcases backs bean earlier with isType | ⟨definition, made, assignable⟩
    · exact .inl isType
    · exact .inr ⟨definition, made.grow fun _ => step.mem_journal, assignable⟩
  · obtain ⟨known, isKnown, assignable⟩ := Registry.mem_candidates_iff.1 candidate
    rw [registered] at isKnown
    cases isKnown
    exact .inr ⟨definition, made, assignable⟩

theorem Backs.steps (steps : Steps before after) (coherent : before.Coherent)
    (candidate : name ∈ (before.registry.candidates type).all) (backs : before.Backs name type) :
    after.Backs name type := by
  refine (steps.holds_of_coherent coherent (fun container =>
    container.registry = before.registry ∧ container.Backs name type) ?_ ⟨rfl, backs⟩).1.2
  rintro earlier later step coherent ⟨same, backs⟩
  rw [← same] at candidate
  exact ⟨step.registry.trans same, backs.step step coherent candidate⟩

end Steps

namespace CastsExplained

variable {operations : List Operation} {state : Container} {name : String} {type : TypeName}
  {handout : Handout} (explained : state.CastsExplained operations)
include explained

/-- A cached bean can be handed out as the type exactly if the cache backs its name. -/
theorem fits_cached_iff {bean : Bean} (cached : state.singletons.find? name = some bean) :
    (⟨bean, state.castsOf name⟩ : Handout).Fits type ↔ state.Backs name type := by
  have ofCasts : ∀ {casts}, state.casts.find? name = some casts → state.castsOf name = casts := by
    intro casts found
    simp [castsOf, found]
  constructor
  · rintro ⟨supports, _⟩ other isOther
    rw [cached] at isOther
    cases isOther
    rcases explained.origin name bean cached with ⟨definition, made⟩ | ⟨_, casts⟩
    · rw [ofCasts (explained.made name definition bean made).2] at supports
      exact .inr ⟨definition, made, supports⟩
    · rw [ofCasts casts] at supports
      simp only [Casts.supports, Casts.identity, List.mem_singleton, decide_eq_true_eq] at supports
      exact .inl supports.symm
  · intro backs
    have ofMade : ∀ {definition}, state.heap.Made name definition bean →
        definition.isAssignableTo type = true →
          (⟨bean, state.castsOf name⟩ : Handout).Fits type := by
      intro definition made assignable
      rw [ofCasts (explained.made name definition bean made).2]
      obtain ⟨itself, isType, _⟩ := explained.constructed name definition bean made.constructed
      exact ⟨assignable, isType.trans itself.source.symm⟩
    rcases backs bean cached with rfl | ⟨definition, made, assignable⟩
    · rcases explained.origin name bean cached with ⟨definition, made⟩ | ⟨_, casts⟩
      · obtain ⟨itself, isType, _⟩ := explained.constructed name definition bean made.constructed
        exact ofMade made (isType ▸ itself.supports)
      · rw [ofCasts casts]
        exact ⟨by simp [Casts.supports, Casts.identity], rfl⟩
    · exact ofMade made assignable

variable (coherent : state.Coherent) (numbered : state.registry.Numbered)
include coherent numbered

/-- A candidate that is not cached is handed out as what its definition lists. -/
theorem fits_of_uncached (uncached : state.singletons.find? name = none)
    (candidate : name ∈ (state.registry.candidates type).all)
    (succeeded : (request name state).1 = .ok handout) : handout.Fits type := by
  obtain ⟨known, isKnown, assignable⟩ := Registry.mem_candidates_iff.1 candidate
  have answering := request_cases name state
  rw [succeeded] at answering
  generalize (request name state).2 = final at answering
  cases answering with
  | cached found =>
      rw [uncached] at found
      cases found
  | made _ registered making =>
      have itself := explained.registered name _ registered
      rw [registered] at isKnown
      cases isKnown
      cases making with
      | @shared _ present _ construction pending _ =>
          -- The bean in creation was constructed of the definition that is registered now.
          have built := (construction.steps request_restores request_grows request_steps numbered
            registered).1
          obtain ⟨still, stillCoherent⟩ := explained.steps coherent built
          obtain ⟨definition, isDefined, constructed⟩ := stillCoherent.defined name present pending
          rw [(construction.restores request_restores).registry, registered] at isDefined
          cases isDefined
          have isType := (still.constructed name _ present constructed).2.1
          exact ⟨assignable, isType.trans itself.source.symm⟩
      | finished construction =>
          obtain ⟨_, record, rfl, isType, _⟩ := construction.noted
          exact ⟨assignable, isType.trans itself.source.symm⟩

/-- The bean of a candidate can be handed out as the type exactly if the cache backs the
candidate. -/
theorem fits_iff (candidate : name ∈ (state.registry.candidates type).all)
    (succeeded : (request name state).1 = .ok handout) :
    handout.Fits type ↔ state.Backs name type := by
  cases isCached : state.singletons.find? name with
  | none =>
      have fits := explained.fits_of_uncached coherent numbered isCached candidate succeeded
      refine iff_of_true fits ?_
      intro bean cached
      rw [isCached] at cached
      cases cached
  | some bean =>
      have answering := request_cases name state
      rw [succeeded] at answering
      generalize (request name state).2 = final at answering
      cases answering with
      | cached cached => exact explained.fits_cached_iff cached
      | made uncached =>
          rw [isCached] at uncached
          cases uncached

/-- A wildcard all of whose names are backed is resolved, unless a request for one of them
fails. -/
theorem wildcard_fails {point : InjectionPoint} {reference : BeanReference} {target : BeanTarget}
    {names : List String} {error : BeanError}
    (dependency : point.dependency = .bean reference target)
    (wildcard : reference.isWildcard = true) (isNames : point.names state.registry = .ok names)
    (backs : ∀ name ∈ names, state.Backs name target.element)
    (failed : (resolvePoint request point state).1 = .error error) :
    ∃ name ∈ names, ∃ asked final,
      Asks request state asked final ∧ (name, .error error) ∈ asked := by
  obtain ⟨asked, asks, outcome⟩ :=
    resolvePoint_asking (keepsConfiguration request_restores) point state rfl rfl
  rw [failed] at outcome
  cases outcome with
  | unread isProperty =>
      rw [dependency] at isProperty
      cases isProperty
  | undecided _ undecided =>
      rw [isNames] at undecided
      cases undecided
  | unserved isBean same serves =>
      rw [dependency] at isBean
      cases isBean
      rw [isNames] at same
      cases same
      rcases serves.fails with ⟨name, member⟩ | ⟨name, handout, member, unfit, _⟩
      · exact ⟨name, serves.mem_names member, asked, _, asks, member⟩
      · have isName := serves.mem_names member
        have candidate : name ∈ (state.registry.candidates target.element).all := by
          exact InjectionPoint.LeadsTo.candidate ⟨_, isNames, isName⟩ dependency wildcard
        obtain ⟨_, middle, _, _, _, before, answered, _⟩ := asks.split member
        have steps := before.steps_of_request numbered
        have registry := (before.restores request_restores).registry
        obtain ⟨still, stillCoherent⟩ := explained.steps coherent steps
        -- Requests for other names came before, and may have cached the bean meanwhile.
        have stillBacked := (backs name isName).steps steps coherent candidate
        rw [← registry] at candidate numbered
        have fitsIff := still.fits_iff stillCoherent numbered candidate (congrArg Prod.fst answered)
        exact absurd (fitsIff.2 stillBacked) unfit

omit coherent numbered in
/-- A candidate whose name no operation freed or took for a bean is backed. -/
theorem backs (candidate : name ∈ (state.registry.candidates type).all)
    (kept : .remove name ∉ operations)
    (free : ∀ bean, .registerSingleton name bean ∉ operations) : state.Backs name type := by
  intro bean cached
  rcases explained.origin name bean cached with ⟨definition, made⟩ | ⟨given, _⟩
  · obtain ⟨_, _, registered⟩ := explained.constructed name definition bean made.constructed
    obtain ⟨known, isKnown, assignable⟩ := Registry.mem_candidates_iff.1 candidate
    rcases registered with registered | removed
    · rw [registered] at isKnown
      cases isKnown
      exact .inr ⟨definition, made, assignable⟩
    · exact absurd removed kept
  · exact absurd given (free bean)

end CastsExplained

/-! ## Runs -/

/-- The states in which requests are made on behalf of another one follow from it by steps. -/
theorem Nested.steps {name : String} {start middle : Container} (numbered : start.registry.Numbered)
    (nested : Nested request name start middle) : Steps start middle := by
  cases nested with
  | constructing registered idle asks =>
      have stillNumbered : (start.beginConstruction name).registry.Numbered := numbered
      exact .head (.mark (name :: start.constructing)) (asks.steps_of_request stillNumbered)
  | @creating definition raw built _ _ registered construction fresh asks =>
      have entered := ((construction.steps request_restores request_grows request_steps numbered
        registered).2 fresh).1
      have stillNumbered :
          ((built.noted (.entered name raw)).enter name raw).registry.Numbered := by
        show built.registry.Numbered
        rw [(construction.restores request_restores).registry]
        exact numbered
      exact entered.trans (asks.steps_of_request stillNumbered)

theorem Inside.steps {name : String} {start middle : Container} (numbered : start.registry.Numbered)
    (inside : Inside name start middle) : Steps start middle := by
  induction inside with
  | nested nested => exact nested.steps numbered
  | deeper nested _ _ ih =>
      have first := nested.steps numbered
      rw [← nested.registry] at numbered
      exact first.trans (ih numbered)

/-- The state is the given one, or one in which requests are made on behalf of a request that is
made in it. -/
def Within (start state : Container) : Prop := state = start ∨ ∃ name, Inside name start state

theorem Within.steps {start state : Container} (numbered : start.registry.Numbered)
    (within : Within start state) : Steps start state := by
  rcases within with rfl | ⟨name, inside⟩
  · exact .refl
  · exact inside.steps numbered

/-- In every state after a run, and inside of every request that follows it, the bean of a candidate
can be handed out as the type exactly if the bean cached under its name, if there is one, is of the
type or was made of a definition that lists the type.  This is so if no bean was registered as a
singleton under the name and its definition was never removed.  If it is so for the names that a
wildcard chooses, resolving it fails only with the error of a request for one of them. -/
theorem run_hands_out_candidates (properties : PropertyStore) (operations : List Operation)
    {state : Container} (within : Within ((new properties).run operations) state) :
    (∀ type, ∀ name ∈ (state.registry.candidates type).all, ∀ handout,
      (request name state).1 = .ok handout → (handout.Fits type ↔ state.Backs name type)) ∧
    (∀ type, ∀ name ∈ (state.registry.candidates type).all, .remove name ∉ operations →
      (∀ bean, .registerSingleton name bean ∉ operations) → state.Backs name type) ∧
    ∀ (point : InjectionPoint) reference target names,
      point.dependency = .bean reference target → reference.isWildcard = true →
        point.names state.registry = .ok names →
          (∀ name ∈ names, state.Backs name target.element) →
            ∀ error, (resolvePoint request point state).1 = .error error →
              ∃ name ∈ names, ∃ asked final,
                Asks request state asked final ∧ (name, .error error) ∈ asked := by
  have sound := run_sound properties operations
  have steps := within.steps sound.numbered
  have atStart := run_castsExplained properties operations
  obtain ⟨explained, coherent⟩ := atStart.steps sound.coherent steps
  have numbered : state.registry.Numbered :=
    steps.holds (fun container => container.registry.Numbered)
      (fun step numbered => step.registry ▸ numbered) sound.numbered
  refine ⟨?_, ?_, ?_⟩
  · intro type name candidate handout succeeded
    exact explained.fits_iff coherent numbered candidate succeeded
  · intro type name candidate kept free
    exact explained.backs candidate kept free
  · intro point reference target names dependency wildcard isNames backs error failed
    exact explained.wildcard_fails coherent numbered dependency wildcard isNames backs failed

/-- A stopwatch is registered as a singleton under a name that is then given to alarms. -/
def takenName : List Operation :=
  [.create ⟨"Stopwatch"⟩ [] [],
    .registerSingleton "timer" (.plain ⟨0, ⟨"Stopwatch"⟩, "Stopwatch#1", {}⟩),
    .register "timer" { type := ⟨"Alarm"⟩ }]

/-- The bean of a candidate cannot always be handed out as the type: its name may have been given to
a bean of another type. -/
theorem not_hands_out_candidates :
    ¬ ∀ (operations : List Operation) (type : TypeName) (name : String) (handout : Handout),
      name ∈ (((new {}).run operations).registry.candidates type).all →
        (request name ((new {}).run operations)).1 = .ok handout → handout.Fits type := by
  intro always
  have candidate : "timer" ∈ (((new {}).run takenName).registry.candidates ⟨"Alarm"⟩).all := by
    decide +kernel
  have unfit : (request "timer" ((new {}).run takenName)).1.toOption.any
      (fun handout => !decide (handout.Fits ⟨"Alarm"⟩)) = true := by
    decide +kernel
  have fits := always takenName ⟨"Alarm"⟩ "timer"
  generalize (request "timer" ((new {}).run takenName)).1 = answer at unfit fits
  cases answer with
  | error error => cases unfit
  | ok handout =>
      have differs : ¬ handout.Fits ⟨"Alarm"⟩ := by simpa [Except.toOption] using unfit
      exact differs (fits handout candidate rfl)

/-- A pen that is cached already, and is one of the tools. -/
def cachedPen : List Operation := workshop ++ [.request "Pen"]

namespace cachedPen

theorem candidate : "Pen" ∈ (((new {}).run cachedPen).registry.candidates ⟨"Tool"⟩).all := by
  decide +kernel

theorem succeeds : ∃ handout, (request "Pen" ((new {}).run cachedPen)).1 = .ok handout := by
  have isOk : (request "Pen" ((new {}).run cachedPen)).1.toOption.isSome = true := by
    decide +kernel
  cases succeeded : (request "Pen" ((new {}).run cachedPen)).1 with
  | error error =>
      rw [succeeded] at isOk
      cases isOk
  | ok handout => exact ⟨handout, rfl⟩

end cachedPen

/-- The pen is handed out as a tool. -/
theorem cachedPen_hands_out_candidates :
    Within ((new {}).run cachedPen) ((new {}).run cachedPen) ∧
    ∃ handout, (request "Pen" ((new {}).run cachedPen)).1 = .ok handout ∧
      handout.Fits ⟨"Tool"⟩ := by
  have within : Within ((new {}).run cachedPen) ((new {}).run cachedPen) := .inl rfl
  obtain ⟨fitsIff, backs, _⟩ := run_hands_out_candidates {} cachedPen within
  obtain ⟨handout, succeeded⟩ := cachedPen.succeeds
  have isBacked := backs ⟨"Tool"⟩ "Pen" cachedPen.candidate (by simp [cachedPen, workshop])
    (by simp [cachedPen, workshop])
  have fits := (fitsIff ⟨"Tool"⟩ "Pen" cachedPen.candidate handout succeeded).2 isBacked
  exact ⟨within, handout, succeeded, fits⟩

end Container
end BeanContainer
