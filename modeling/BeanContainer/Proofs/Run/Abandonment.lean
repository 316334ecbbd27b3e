import BeanContainer.Proofs.Run.Identity

/-!
# Beans that hold abandoned ones

A bean in creation is handed out before it is known whether it can be finished, and what
was finished meanwhile stays cached even if it is abandoned later.  So a finished bean may
hold an abandoned one, but only if it was finished while that one was still in creation:
no bean that is finished later gets hold of it.
-/

namespace BeanContainer

/-- The holder of the container brings the bean in, as a finished singleton or as part of a
literal argument. -/
def Operation.Brings (bean : Bean) : Operation → Prop
  | .registerSingleton _ brought => brought = bean
  | .register _ declaration =>
      ∃ definition place, declaration.define = .ok definition ∧ definition.Gives bean place
  | _ => False

namespace Container

/-- A constructed bean holds the other one in an argument of its constructor or in a cell
that was wired. -/
def Holds (container : Container) (holder bean : Bean) : Prop :=
  ∃ name definition record contents place, holder = .plain record ∧
    container.Noted (.constructed name definition holder) ∧
      container.heap.contents[record.index]? = some contents ∧
        definition.Holds contents bean place

/-- What became of a bean that was held by another one when that one was committed: it is
finished, it is in creation since before, or it was abandoned afterwards. -/
inductive Settles (container : Container) (name : String) (holder bean : Bean) : Prop
  | finished {other : String} (committed : container.Noted (.committed other bean))
  | unfinished {other : String} (creating : container.inCreation.find? other = some bean)
      (order : [.entered other bean, .committed name holder].Sublist
        container.heap.journal.toList)
  | failed {other : String}
      (order : [.entered other bean, .committed name holder, .abandoned other bean].Sublist
        container.heap.journal.toList)

/-- The bean was not brought in, so wherever a finished bean holds it, it came out of a
request. -/
structure Confines (operations : List Operation) (bean : Bean) (container : Container) :
    Prop where
  withheld : ∀ name definition, container.registry.find? name = some definition →
    ∀ place, ¬ definition.Gives bean place
  cached : ∀ name other, container.singletons.find? name = some other →
    container.Noted (.committed name other) ∨ .registerSingleton name other ∈ operations
  settles : ∀ name holder, container.Noted (.committed name holder) →
    container.Holds holder bean → container.Settles name holder bean

/-- Later events come after earlier ones. -/
theorem Step.journal_prefix {before after : Container} (step : Step before after) :
    before.heap.journal.toList <+: after.heap.journal.toList := by
  obtain ⟨events, journal, _⟩ := step.grows.journal
  exact ⟨events, journal.symm⟩

/-- A committed bean holds nothing after a step that it did not hold before. -/
theorem Holds.before {before after : Container} {name : String} {holder bean : Bean}
    (holds : after.Holds holder bean) (coherent : before.Coherent)
    (coherentLater : after.Coherent) (journal : ∀ event, before.Noted event → after.Noted event)
    (grows : before.heap.Extends
      (fun index => ∃ name raw, before.inCreation.find? name = some raw ∧ raw.IsAt index)
      (fun _ => True) after.heap)
    (committed : before.Noted (.committed name holder)) : before.Holds holder bean := by
  obtain ⟨other, definition, record, later, place, rfl, constructed, foundLater, held⟩ := holds
  obtain ⟨known, constructedBefore⟩ :=
    coherent.entered _ _ (coherent.committed _ _ committed).1
  obtain ⟨rfl, rfl, _⟩ := coherentLater.apart _ _ _ _ _ _ constructed
    (journal _ constructedBefore) rfl
  obtain ⟨_, isRecord, inside⟩ := coherent.placed _ _ _ constructedBefore
  cases isRecord
  obtain ⟨_, foundAgain, arguments, cells⟩ := grows.records record.index
    before.heap.contents[record.index] (Array.getElem?_eq_getElem inside)
  rw [foundLater] at foundAgain
  cases foundAgain
  have untouched : ¬ ∃ name raw, before.inCreation.find? name = some raw ∧
      raw.IsAt record.index := by
    intro creation
    obtain ⟨pending, raw, creating, wired, isRaw, sameIndex⟩ := creation
    obtain ⟨definition', _, constructedRaw⟩ := coherent.defined pending raw creating
    subst isRaw
    obtain ⟨rfl, _, rfl⟩ := coherent.apart _ _ _ _ _ _ constructedRaw constructedBefore sameIndex
    exact (coherent.creating _ _ creating).2.1 committed
  refine ⟨_, _, record, _, place, rfl, constructedBefore, Array.getElem?_eq_getElem inside, ?_⟩
  cases held with
  | argument received isInside =>
      rw [arguments] at received
      exact .argument received isInside
  | cell left filled isInside =>
      rw [arguments] at left
      rw [cells untouched] at filled
      exact .cell left filled isInside

/-- What became of the bean stays so while beans remain in creation. -/
theorem Settles.mono {before after : Container} {name : String} {holder bean : Bean}
    (settles : before.Settles name holder bean)
    (remains : ∀ other, before.inCreation.find? other = some bean →
      after.inCreation.find? other = some bean)
    (journal : before.heap.journal.toList <+: after.heap.journal.toList) :
    after.Settles name holder bean := by
  cases settles with
  | finished committed => exact .finished (journal.subset committed)
  | unfinished creating order =>
      exact .unfinished (remains _ creating) (order.trans journal.sublist)
  | failed order => exact .failed (order.trans journal.sublist)

/-- A bean that leaves creation is committed or abandoned, and either is recorded. -/
theorem Settles.step {before after : Container} {name : String} {holder bean : Bean}
    (settles : before.Settles name holder bean) (step : Step before after) :
    after.Settles name holder bean := by
  have journal := step.journal_prefix
  cases step with
  | mark => exact settles.mono (fun _ => id) journal
  | spare => exact settles.mono (fun _ => id) journal
  | enter _ _ fresh =>
      exact settles.mono (fun other => (Preserves.entered before _ _ _ fresh).inCreation other _)
        journal
  | wire => exact settles.mono (fun _ => id) journal
  | handOut => exact settles.mono (fun _ => id) journal
  | @abandon left raw leaves =>
      cases settles with
      | finished committed => exact .finished (journal.subset committed)
      | failed order => exact .failed (order.trans journal.sublist)
      | @unfinished other creating order =>
          by_cases same : other = left
          · subst same
            rw [creating] at leaves
            cases leaves
            have last : ((before.leave other).noted (.abandoned other bean)).heap.journal.toList =
                before.heap.journal.toList ++ [Event.abandoned other bean] := noted_journal _ _
            have ordered : [.entered other bean, .committed name holder,
                .abandoned other bean].Sublist
                  ((before.leave other).noted (.abandoned other bean)).heap.journal.toList := by
              rw [last]
              exact order.append (List.Sublist.refl [Event.abandoned other bean])
            exact .failed ordered
          · exact .unfinished ((Table.find?_erase_of_ne _ same).trans creating)
              (order.trans journal.sublist)
  | @commit left definition raw _ _ leaves _ =>
      cases settles with
      | finished committed => exact .finished (journal.subset committed)
      | failed order => exact .failed (order.trans journal.sublist)
      | @unfinished other creating order =>
          by_cases same : other = left
          · subst same
            rw [creating] at leaves
            cases leaves
            exact .finished (committed_noted_iff.2 (.inr rfl))
          · have remains : (before.committed left definition raw).inCreation.find? other =
                some bean := by
              rw [committed_inCreation]
              exact (Table.find?_erase_of_ne _ same).trans creating
            exact .unfinished remains (order.trans journal.sublist)

namespace Confines

variable {operations : List Operation} {bean : Bean} {before after : Container}

/-- A bean that is committed holds beans that are finished or in creation since before. -/
theorem commit (confines : before.Confines operations bean) (coherent : before.Coherent)
    (foreign : ∀ name, .registerSingleton name bean ∉ operations) {name : String}
    {definition : Definition} {raw : Bean}
    (registered : before.registry.find? name = some definition)
    (creating : before.inCreation.find? name = some raw)
    (accounts : before.Accounts definition raw) (holds : before.Holds raw bean) :
    (before.committed name definition raw).Settles name raw bean := by
  have earlier : ∀ {event}, before.Noted event →
      (before.committed name definition raw).Noted event :=
    fun noted => committed_noted_iff.2 (.inl noted)
  obtain ⟨record, contents, rfl, found, accounted⟩ := accounts
  obtain ⟨other, definition', record', contents', place, isRecord, constructed, foundAgain, held⟩ :=
    holds
  cases isRecord
  rw [found] at foundAgain
  cases foundAgain
  obtain ⟨known, isKnown, constructedHere⟩ := coherent.defined _ _ creating
  rw [registered] at isKnown
  cases isKnown
  obtain ⟨rfl, rfl, _⟩ := coherent.apart _ _ _ _ _ _ constructed constructedHere rfl
  rcases accounted.of_holds held with given | ⟨_, _, _, ⟨_, beans, _, same, offered⟩, inside⟩
  · exact absurd given (confines.withheld _ _ registered place)
  · obtain ⟨provider, _, offers⟩ := exists_of_forall₂_right offered (same.mem_iff.1 inside)
    cases offers.has with
    | cached isCached =>
        rcases confines.cached provider bean isCached with finished | brought
        · exact .finished (earlier finished)
        · exact absurd brought (foreign provider)
    | prototype _ _ finished => exact .finished (earlier finished)
    | creating isCreating =>
        by_cases same : provider = other
        · subst same
          rw [creating] at isCreating
          cases isCreating
          exact .finished (committed_noted_iff.2 (.inr rfl))
        · have remains : (before.committed other definition' (.plain record)).inCreation.find?
              provider = some bean := by
            rw [committed_inCreation]
            exact (Table.find?_erase_of_ne _ same).trans isCreating
          refine .unfinished remains ?_
          rw [committed_heap, Heap.note, Array.toList_push]
          have entered := (coherent.creating provider bean isCreating).1
          exact (List.singleton_sublist.2 entered).append
            (List.Sublist.refl [Event.committed other (.plain record)])

/-- What is cached after a step was cached before or is committed by it. -/
theorem cached_step (confines : before.Confines operations bean) (step : Step before after)
    {name : String} {other : Bean} (found : after.singletons.find? name = some other) :
    after.Noted (.committed name other) ∨ .registerSingleton name other ∈ operations := by
  have earlier : before.singletons.find? name = some other →
      after.Noted (.committed name other) ∨ .registerSingleton name other ∈ operations := by
    intro foundBefore
    rcases confines.cached name other foundBefore with committed | brought
    · exact .inl (step.mem_journal committed)
    · exact .inr brought
  cases step with
  | commit _ _ _ _ =>
      rcases of_keep_singletons found with ⟨isName, isRaw⟩ | foundBefore
      · subst isName isRaw
        exact .inl (committed_noted_iff.2 (.inr rfl))
      · exact earlier foundBefore
  | mark => exact earlier found
  | spare => exact earlier found
  | enter => exact earlier found
  | wire => exact earlier found
  | abandon => exact earlier found
  | handOut => exact earlier found

/-- What is committed after a step was committed before or is committed by it. -/
theorem settles_step (confines : before.Confines operations bean) (coherent : before.Coherent)
    (foreign : ∀ name, .registerSingleton name bean ∉ operations) (step : Step before after)
    {name : String} {holder : Bean} (committed : after.Noted (.committed name holder))
    (holds : after.Holds holder bean) : after.Settles name holder bean := by
  have earlier : before.Noted (.committed name holder) → after.Settles name holder bean := by
    intro committedBefore
    have heldBefore := holds.before coherent (coherent.step step)
      (fun _ => step.mem_journal) step.grows committedBefore
    exact (confines.settles name holder committedBefore heldBefore).step step
  cases step with
  | commit registered _ creating accounts =>
      rcases committed_noted_iff.1 committed with committedBefore | isNew
      · exact earlier committedBefore
      · cases isNew
        obtain ⟨other, known, record, contents, place, isRecord, constructed, found,
          held⟩ := holds
        have constructedBefore : before.Noted (.constructed other known holder) := by
          simpa using constructed
        rw [committed_heap] at found
        exact confines.commit coherent foreign registered creating accounts
          ⟨other, known, record, contents, place, isRecord, constructedBefore, found, held⟩
  | mark => exact earlier committed
  | spare => exact earlier (by simpa using committed)
  | enter => exact earlier (by simpa using noted_iff.1 committed)
  | wire _ _ grows _ =>
      exact earlier (grows.mem_journal_of_not committed fun inner => inner trivial)
  | abandon => exact earlier (by simpa using noted_iff.1 committed)
  | handOut => exact earlier (by simpa using noted_iff.1 committed)

/-- Every step of a request confines a bean that was not brought in. -/
theorem step (confines : before.Confines operations bean) (coherent : before.Coherent)
    (foreign : ∀ name, .registerSingleton name bean ∉ operations) (step : Step before after) :
    after.Confines operations bean where
  withheld := by
    rw [step.registry]
    exact confines.withheld
  cached _ _ found := confines.cached_step step found
  settles _ _ committed holds := confines.settles_step coherent foreign step committed holds

/-- Where no cell is filled and no bean leaves creation, nothing changes for those that are
held. -/
theorem continues (confines : before.Confines operations bean) (coherent : before.Coherent)
    (coherentLater : after.Coherent)
    (withheld : ∀ name definition, after.registry.find? name = some definition →
      ∀ place, ¬ definition.Gives bean place)
    (cached : ∀ name other, after.singletons.find? name = some other →
      after.Noted (.committed name other) ∨ .registerSingleton name other ∈ operations)
    (inCreation : after.inCreation = before.inCreation)
    (grows : before.heap.Continues after.heap) : after.Confines operations bean := by
  refine ⟨withheld, cached, ?_⟩
  intro name holder committed holds
  have committedBefore : before.Noted (.committed name holder) :=
    grows.mem_journal_of_not committed fun inner => inner trivial
  have heldBefore := holds.before coherent coherentLater (fun _ => grows.mem_journal)
    (grows.mono (fun _ impossible => impossible.elim) fun _ _ => trivial) committedBefore
  obtain ⟨events, journal, _⟩ := grows.journal
  refine (confines.settles name holder committedBefore heldBefore).mono ?_ ⟨events, journal.symm⟩
  rw [inCreation]
  exact fun _ => id

/-- Every operation confines a bean that none of them brings in. -/
theorem effect {operation : Operation} (confines : before.Confines operations bean)
    (sound : before.Sound) (member : operation ∈ operations)
    (foreign : ∀ operation ∈ operations, ¬ operation.Brings bean)
    (effect : operation.Effect before after) : after.Confines operations bean := by
  have coherentLater := (sound.effect effect).coherent
  have unregistered : ∀ name, .registerSingleton name bean ∉ operations :=
    fun name registers => foreign _ registers rfl
  cases effect with
  | refused => exact confines
  | @registers name declaration definition _ declared _ =>
      refine confines.continues sound.coherent coherentLater ?_ confines.cached rfl (.refl _)
      intro other known registered place given
      rcases Table.find?_insert_eq_some_iff.1 registered with ⟨_, isNew⟩ | ⟨_, before⟩
      · subst isNew
        exact foreign _ member ⟨definition, place, declared, given⟩
      · exact confines.withheld other known before place given
  | @removes name =>
      refine confines.continues sound.coherent coherentLater ?_ confines.cached rfl (.refl _)
      intro other known registered
      exact confines.withheld other known (Table.find?_erase_eq_some_iff.1 registered).2
  | @caches name brought =>
      refine confines.continues sound.coherent coherentLater confines.withheld ?_ rfl (.refl _)
      intro other held found
      rcases Table.find?_insert_eq_some_iff.1 found with ⟨isName, isBrought⟩ | ⟨_, cachedBefore⟩
      · subst isName isBrought
        exact .inr member
      · exact confines.cached other held cachedBefore
  | configures =>
      exact confines.continues sound.coherent coherentLater confines.withheld confines.cached rfl
        (.refl _)
  | @asks _ _ middle asked heap asks continues =>
      have both : middle.Confines operations bean ∧ middle.Coherent := by
        refine (asks.steps_of_request sound.numbered).holds
          (fun container => container.Confines operations bean ∧ container.Coherent) ?_
          ⟨confines, sound.coherent⟩
        intro before after step both
        exact ⟨both.1.step both.2 unregistered step, both.2.step step⟩
      refine both.1.continues both.2 coherentLater both.1.withheld ?_ rfl continues
      intro name other found
      rcases both.1.cached name other found with committed | brought
      · exact .inl (continues.mem_journal committed)
      · exact .inr brought

end Confines

theorem new_confines (properties : PropertyStore) (operations : List Operation) (bean : Bean) :
    (new properties).Confines operations bean where
  withheld name definition registered := by
    change Table.find? Table.empty name = some definition at registered
    simp at registered
  cached name other found := by
    change Table.find? Table.empty name = some other at found
    simp at found
  settles name holder committed := by cases committed

/-- A cached bean that the container made may hold a bean whose creation failed, if that one
was not brought in, only if it was finished between the other's being entered and its
being abandoned. -/
theorem run_holds_abandoned {properties : PropertyStore} {operations : List Operation}
    {final : Container} (ran : (new properties).run operations = final)
    {name failed : String} {holder bean : Bean}
    (cached : final.singletons.find? name = some holder)
    (made : .registerSingleton name holder ∉ operations)
    (holds : final.Holds holder bean) (abandoned : final.Noted (.abandoned failed bean))
    (foreign : ∀ operation ∈ operations, ¬ operation.Brings bean) :
    [.entered failed bean, .committed name holder, .abandoned failed bean].Sublist
      final.heap.journal.toList := by
  subst ran
  have both : ((new properties).run operations).Confines operations bean ∧
      ((new properties).run operations).Sound := run_holds
    (fun container => container.Confines operations bean ∧ container.Sound)
    ⟨new_confines properties operations bean, new_sound properties⟩ (by
      intro operation member before after effect both
      exact ⟨both.1.effect both.2 member foreign effect, both.2.effect effect⟩)
  obtain ⟨confines, sound⟩ := both
  have coherent := sound.coherent
  have committed : ((new properties).run operations).Noted (.committed name holder) := by
    rcases confines.cached name holder cached with committed | brought
    · exact committed
    · exact absurd brought made
  have entered := coherent.abandoned failed bean abandoned
  cases confines.settles name holder committed holds with
  | @finished other finished =>
      have same := coherent.name_eq entered (coherent.committed _ _ finished).1
      subst same
      exact absurd abandoned (coherent.committed _ _ finished).2
  | unfinished creating _ =>
      rw [sound.rest.inCreation] at creating
      simp at creating
  | @failed other order =>
      have enteredAgain : ((new properties).run operations).Noted (.entered other bean) :=
        order.subset (by simp)
      have same := coherent.name_eq entered enteredAgain
      subst same
      exact order

/-- Two singletons that refer to each other.  The one that is requested cannot be finished,
as a property that it needs is missing. -/
def failedPair : List Operation :=
  let alpha := referring "Alpha" "Beta"
  let text : Field := ⟨"text", "text", .property (.scalar .text), "value:$\x7bmissing\x7d"⟩
  [.register "Alpha" { alpha with fields := alpha.fields ++ [text] },
    .register "Beta" (referring "Beta" "Alpha"), .request "Alpha"]

namespace failedPair

def alpha : Bean := .plain ⟨0, ⟨"Alpha"⟩, "Alpha#1", {}⟩

def beta : Bean := .plain ⟨1, ⟨"Beta"⟩, "Beta#2", {}⟩

theorem made (name : String) (bean : Bean) : .registerSingleton name bean ∉ failedPair := by
  simp [failedPair]

theorem cached : ((new {}).run failedPair).singletons.find? "Beta" = some beta := by
  decide +kernel

/-- The other bean is in a cell that was wired. -/
theorem holds : ((new {}).run failedPair).Holds beta alpha := by
  have constructed : ((new {}).run failedPair).heap.journal.toList.any (fun event =>
      match event with
      | .constructed _ definition bean => definition.recipe.methodName.isNone && bean = beta
      | _ => false) = true := by
    decide +kernel
  have wired : ((new {}).run failedPair).heap.contents[1]?.any (fun contents =>
      (contents.cells.find? "peer").any fun value => value.beans = [alpha]) = true := by
    decide +kernel
  -- From here on the run must not be computed again.
  generalize (new {}).run failedPair = final at constructed wired ⊢
  obtain ⟨event, noted, isBeta⟩ := List.any_eq_true.1 constructed
  obtain ⟨contents, found, hasCell⟩ := (Option.any_eq_true _ _).1 wired
  obtain ⟨value, filled, isAlpha⟩ := (Option.any_eq_true _ _).1 hasCell
  have inside : alpha ∈ value.beans := by
    rw [of_decide_eq_true isAlpha]
    exact List.mem_singleton.2 rfl
  cases event with
  | constructed name definition bean =>
      have both : definition.recipe.methodName = none ∧ bean = beta := by simpa using isBeta
      obtain ⟨blank, isBean⟩ := both
      subst isBean
      have unset : ¬ definition.recipe.Presets contents.arguments "peer" := by
        cases recipe : definition.recipe with
        | blank => exact id
        | calling method inputs =>
            rw [recipe] at blank
            cases blank
      exact ⟨name, definition, _, contents, _, rfl, noted, found, .cell unset filled inside⟩
  | _ => cases isBeta

theorem abandoned : ((new {}).run failedPair).Noted (.abandoned "Alpha" alpha) := by
  have isNoted : ((new {}).run failedPair).heap.journal.toList.any (fun event =>
      match event with
      | .abandoned name bean => name = "Alpha" && bean = alpha
      | _ => false) = true := by
    decide +kernel
  obtain ⟨event, noted, isAbandonment⟩ := List.any_eq_true.1 isNoted
  cases event with
  | abandoned name bean =>
      have both : name = "Alpha" ∧ bean = alpha := by simpa using isAbandonment
      obtain ⟨isName, isBean⟩ := both
      subst isName isBean
      exact noted
  | _ => cases isAbandonment

/-- Neither declaration has a constructor, so neither has a literal argument. -/
theorem foreign : ∀ operation ∈ failedPair, ¬ operation.Brings alpha := by
  intro operation member brings
  simp only [failedPair, List.mem_cons, List.not_mem_nil, or_false] at member
  rcases member with isFirst | isSecond | isRequest
  · subst isFirst
    obtain ⟨definition, place, declared, given⟩ := brings
    exact Declaration.not_gives_of_define declared rfl _ _ given
  · subst isSecond
    obtain ⟨definition, place, declared, given⟩ := brings
    exact Declaration.not_gives_of_define declared rfl _ _ given
  · subst isRequest
    exact brings

end failedPair

/-- It is not so that no cached bean that the container made holds a bean whose creation
failed. -/
theorem not_holds_abandoned :
    ¬ ∀ (properties : PropertyStore) (operations : List Operation) (name failed : String)
      (holder bean : Bean), .registerSingleton name holder ∉ operations →
        ((new properties).run operations).singletons.find? name = some holder →
          ((new properties).run operations).Noted (.abandoned failed bean) →
            ¬ ((new properties).run operations).Holds holder bean := by
  intro never
  exact never {} failedPair "Beta" "Alpha" failedPair.beta failedPair.alpha
    (failedPair.made _ _) failedPair.cached failedPair.abandoned failedPair.holds

/-- The requested bean was entered, then the other one was finished, then the requested one
was abandoned. -/
theorem failedPair_holds_abandoned :
    (∀ operation ∈ failedPair, ¬ operation.Brings failedPair.alpha) ∧
      ((new {}).run failedPair).Holds failedPair.beta failedPair.alpha ∧
        [.entered "Alpha" failedPair.alpha, .committed "Beta" failedPair.beta,
          .abandoned "Alpha" failedPair.alpha].Sublist
            ((new {}).run failedPair).heap.journal.toList :=
  ⟨failedPair.foreign, failedPair.holds, run_holds_abandoned rfl failedPair.cached
    (failedPair.made _ _) failedPair.holds failedPair.abandoned failedPair.foreign⟩

end Container
end BeanContainer
