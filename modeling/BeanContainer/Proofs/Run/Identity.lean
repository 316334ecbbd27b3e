import BeanContainer.Proofs.Run.Injection

/-!
# One instance of each singleton

If no definition is removed and no bean that was entered fails to be finished, then all
requests for a singleton hand out the same bean, finished or not, and this bean ends up
in the cache.
-/

namespace BeanContainer
namespace Container

open Running

/-- Some bean was entered and could not be finished. -/
def Abandons (container : Container) : Prop :=
  ∃ name bean, container.Noted (.abandoned name bean)

/-- The value holds one bean for each name that the point leads to among the definitions.  It
was handed out under the name, and if the name is a singleton it is the one in the cache. -/
def SharedWith (container : Container) (registry : Registry) (point : InjectionPoint)
    (value : Value) : Prop :=
  ∃ names beans, point.names registry = .ok names ∧ value.beans.Perm beans ∧
    List.Forall₂ (fun name bean => container.Noted (.handedOut name bean) ∧
      (container.IsSingleton name → container.singletons.find? name = some bean)) names beans

/-- Whatever was handed out for a name that is not a prototype is the finished or the
unfinished bean of the name. -/
def HandsOutOne (container : Container) : Prop :=
  ∀ name bean, container.Noted (.handedOut name bean) →
    container.IsPrototype name ∨ container.singletons.find? name = some bean ∨
      container.inCreation.find? name = some bean

namespace HandsOutOne

variable {before after : Container} (one : before.HandsOutOne)
include one

/-- Nothing is handed out, and nothing that can be had is lost. -/
theorem quiet (preserves : Preserves before after)
    (handsOut : ∀ name bean, after.Noted (.handedOut name bean) →
      before.Noted (.handedOut name bean)) : after.HandsOutOne := by
  intro name bean handedOut
  rcases one name bean (handsOut name bean handedOut) with
    ⟨definition, registered, scope⟩ | cached | creating
  · exact .inl ⟨definition, by rw [preserves.registry]; exact registered, scope⟩
  · exact .inr (.inl (preserves.singletons name bean cached))
  · exact .inr (.inr (preserves.inCreation name bean creating))

/-- A bean that is handed out can be had. -/
theorem handOut {name : String} {bean : Bean} (has : before.Has name bean) :
    (before.noted (.handedOut name bean)).HandsOutOne := by
  intro other held handedOut
  rcases noted_iff.1 handedOut with earlier | isNew
  · exact one other held earlier
  · cases isNew
    cases has with
    | cached found => exact .inr (.inl found)
    | creating found => exact .inr (.inr found)
    | prototype registered scope _ => exact .inl ⟨_, registered, scope⟩

/-- A bean that leaves creation finished is cached, unless it is a prototype. -/
theorem commit {name : String} {definition : Definition} {raw : Bean}
    (registered : before.registry.find? name = some definition)
    (uncached : before.singletons.find? name = none)
    (creating : before.inCreation.find? name = some raw) :
    (before.committed name definition raw).HandsOutOne := by
  intro other bean handedOut
  have earlier : before.Noted (.handedOut other bean) := by
    simpa using handedOut
  unfold IsPrototype
  rw [committed_registry, committed_inCreation]
  rcases one other bean earlier with prototype | cached | stillCreating
  · exact .inl prototype
  · exact .inr (.inl (keep_singletons_of_uncached uncached cached))
  · by_cases same : other = name
    · subst same
      rw [creating] at stillCreating
      cases stillCreating
      cases scope : definition.scope with
      | prototype => exact .inl ⟨definition, registered, scope⟩
      | singleton => exact .inr (.inl (keep_singletons_self _ scope))
    · exact .inr (.inr ((Table.find?_erase_of_ne _ same).trans stillCreating))

/-- Every step hands out one bean for each singleton, unless it abandons one. -/
theorem step (step : Step before after) : after.Abandons ∨ after.HandsOutOne := by
  cases step with
  | mark => exact .inr one
  | spare =>
      refine .inr (one.quiet (.constructed _ _ _ _ _) ?_)
      intro name bean handedOut
      simpa using handedOut
  | enter _ _ fresh =>
      refine .inr (one.quiet (.entered before _ _ _ fresh) ?_)
      intro name bean handedOut
      have noted := noted_iff.1 handedOut
      simpa using noted
  | wire _ _ grows _ =>
      refine .inr (one.quiet (.withHeap grows) ?_)
      intro name bean handedOut
      exact grows.mem_journal_of_not handedOut fun inner => inner trivial
  | @abandon name raw _ => exact .inl ⟨name, raw, noted_iff.2 (.inr rfl)⟩
  | commit registered uncached creating _ => exact .inr (one.commit registered uncached creating)
  | handOut has => exact .inr (one.handOut has)

end HandsOutOne

/-- Beans that were abandoned stay abandoned. -/
theorem Abandons.extends {before after : Container} (abandons : before.Abandons)
    (extended : Extends before after) : after.Abandons := by
  obtain ⟨name, bean, abandoned⟩ := abandons
  exact ⟨name, bean, extended.journal _ abandoned⟩

/-- What an operation does hands out one bean for each singleton, unless it abandons a bean
or removes a definition. -/
theorem HandsOutOne.effect {operation : Operation} {before after : Container}
    (one : before.HandsOutOne) (sound : before.Sound) (keeps : ∀ name, operation ≠ .remove name)
    (effect : operation.Effect before after) : after.Abandons ∨ after.HandsOutOne := by
  have extended := extends_of_effect sound keeps effect
  cases effect with
  | refused => exact .inr one
  | registers =>
      right
      intro name bean handedOut
      rcases one name bean handedOut with ⟨known, registered, scope⟩ | available
      · exact .inl ⟨known, extended.registry name known registered, scope⟩
      · exact .inr available
  | removes => exact absurd rfl (keeps _)
  | @caches added bean _ free =>
      right
      intro name held handedOut
      rcases one name held handedOut with prototype | cached | creating
      · exact .inl prototype
      · exact .inr (.inl (Table.find?_insert_of_absent bean free cached))
      · exact .inr (.inr creating)
  | configures => exact .inr one
  | @asks _ _ middle asked heap asks continues =>
      have asked : middle.Abandons ∨ middle.HandsOutOne := by
        refine (asks.steps_of_request sound.numbered).holds
          (fun container => container.Abandons ∨ container.HandsOutOne) ?_ (.inr one)
        intro before after step either
        rcases either with abandons | one
        · exact .inl (abandons.extends step.extends)
        · exact one.step step
      rcases asked with abandons | one
      · exact .inl (abandons.extends ⟨fun _ _ => id, fun _ => continues.mem_journal⟩)
      · refine .inr (one.quiet (.withHeap continues) ?_)
        intro name bean handedOut
        exact continues.mem_journal_of_not handedOut fun inner => inner trivial

/-- After a run without removals and abandoned beans, whatever was handed out for a singleton
is cached. -/
theorem run_handsOutOne {properties : PropertyStore} {operations : List Operation}
    (keeps : ∀ name, .remove name ∉ operations)
    (completes : ¬ ((new properties).run operations).Abandons) {name : String} {bean : Bean}
    (singleton : ((new properties).run operations).IsSingleton name)
    (handedOut : ((new properties).run operations).Noted (.handedOut name bean)) :
    ((new properties).run operations).singletons.find? name = some bean := by
  have start : (new properties).HandsOutOne := by
    intro name bean handedOut
    cases handedOut
  have both : (((new properties).run operations).Abandons ∨
      ((new properties).run operations).HandsOutOne) ∧
        ((new properties).run operations).Sound := run_holds
    (fun container => (container.Abandons ∨ container.HandsOutOne) ∧ container.Sound)
    ⟨.inr start, new_sound properties⟩ (by
      intro operation member before after effect both
      have keepsThis : ∀ name, operation ≠ .remove name := by
        intro name isRemoval
        subst isRemoval
        exact keeps name member
      refine ⟨?_, both.2.effect effect⟩
      rcases both.1 with abandons | one
      · exact .inl (abandons.extends (extends_of_effect both.2 keepsThis effect))
      · exact one.effect both.2 keepsThis effect)
  obtain ⟨abandons | one, sound⟩ := both
  · exact absurd abandons completes
  · rcases one name bean handedOut with prototype | cached | creating
    · exact absurd prototype (not_isPrototype singleton)
    · exact cached
    · rw [sound.rest.inCreation] at creating
      simp at creating

/-- What a request in the middle of a run returned was handed out. -/
theorem handedOut_of_request {properties : PropertyStore} {earlier later : List Operation}
    {operation : Operation} {name : String} {handout : Handout}
    (keeps : ∀ name, .remove name ∉ earlier ++ operation :: later)
    (performs : operation.perform ((new properties).run earlier) =
      (request name ((new properties).run earlier)).2)
    (returned : (request name ((new properties).run earlier)).1 = .ok handout) :
    ((new properties).run (earlier ++ operation :: later)).Noted
      (.handedOut name handout.bean) := by
  have sound := run_sound properties earlier
  have offers := (request_steps name _ sound.numbered).2 handout returned
  have keepsLater : ∀ name, .remove name ∉ later := by
    intro name member
    exact keeps name (by simp [member])
  have performed := run_extends (sound.effect (operation.perform_effect _)) keepsLater
  rw [run_append]
  apply performed.journal
  rw [performs]
  exact offers.handedOut

/-- A request for one of the types of a bean is a request for the bean. -/
theorem requestAs_ok {name : String} {target : TypeName} {container : Container} {value : Value}
    (returned : (requestAs name target container).1 = .ok value) :
    ∃ handout, (request name container).1 = .ok handout ∧
      (requestAs name target container).2 = (request name container).2 ∧
        value = .ofBean target handout.bean := by
  unfold requestAs at returned ⊢
  rw [bind_apply] at returned ⊢
  generalize request name container = outcome at returned ⊢
  obtain ⟨result, final⟩ := outcome
  cases result with
  | error error => cases returned
  | ok handout =>
      simp only [] at returned ⊢
      cases cast : handout.casts.cast? handout.bean target with
      | none =>
          rw [cast] at returned
          cases returned
      | some found =>
          rw [cast] at returned
          cases returned
          unfold Casts.cast? at cast
          split at cast
          · cases cast
            exact ⟨handout, rfl, rfl, rfl⟩
          · cases cast

/-- After a run without removals and abandoned beans there is one instance of each
singleton, the one in the cache: it was handed out by every request for the name, returned
by every operation that asked for it, and injected wherever a reference led to the name.  Which
names the references of a bean lead to is settled by the definitions that were registered when
the operation began that constructed the bean. -/
theorem run_shares_singletons {properties : PropertyStore} {operations : List Operation}
    {final : Container} (ran : (new properties).run operations = final)
    (keeps : ∀ name, .remove name ∉ operations) (completes : ¬ final.Abandons) :
    (∀ name bean, final.IsSingleton name → final.Noted (.handedOut name bean) →
      final.singletons.find? name = some bean) ∧
    (∀ earlier name later handout, operations = earlier ++ .request name :: later →
      (request name ((new properties).run earlier)).1 = .ok handout →
        final.IsSingleton name → final.singletons.find? name = some handout.bean) ∧
    (∀ earlier name target later value, operations = earlier ++ .requestAs name target :: later →
      (requestAs name target ((new properties).run earlier)).1 = .ok value →
        final.IsSingleton name →
          ∃ bean, value = .ofBean target bean ∧ final.singletons.find? name = some bean) ∧
    ∀ owner definition record, final.Noted (.constructed owner definition (.plain record)) →
      ∃ earlier operation later, operations = earlier ++ operation :: later ∧
        ¬ ((new properties).run earlier).Noted (.constructed owner definition (.plain record)) ∧
        (operation.perform ((new properties).run earlier)).Noted
          (.constructed owner definition (.plain record)) ∧
        ∃ contents, final.heap.contents[record.index]? = some contents ∧
          definition.Accounts contents
            (final.SharedWith ((new properties).run earlier).registry) := by
  subst ran
  have cached : ∀ {name bean}, ((new properties).run operations).IsSingleton name →
      ((new properties).run operations).Noted (.handedOut name bean) →
        ((new properties).run operations).singletons.find? name = some bean :=
    run_handsOutOne keeps completes
  refine ⟨fun _ _ => cached, ?_, ?_, ?_⟩
  · intro earlier name later handout split returned singleton
    subst split
    exact cached singleton (handedOut_of_request keeps rfl returned)
  · intro earlier name target later value split returned singleton
    subst split
    obtain ⟨handout, asked, same, isBean⟩ := requestAs_ok returned
    exact ⟨handout.bean, isBean, cached singleton (handedOut_of_request keeps same asked)⟩
  · intro owner definition record constructed
    obtain ⟨earlier, operation, later, split, isNew, constructs, contents, found, accounts⟩ :=
      run_received constructed
    refine ⟨earlier, operation, later, split, isNew, constructs, contents, found,
      accounts.mono ?_⟩
    intro point value handed
    obtain ⟨names, beans, isNames, same, handedOut⟩ := handed
    exact ⟨names, beans, isNames, same,
      handedOut.imp fun _ _ noted => ⟨noted, fun singleton => cached singleton noted⟩⟩

/-- A bean type whose beans hold one bean of another type, found by its name. -/
def referring (type other : String) : Declaration where
  type := ⟨type⟩
  fields := [⟨"peer", "peer", .bean ⟨⟨other⟩, false⟩, "autowire:" ++ other⟩]

/-- Two singletons that refer to each other, one of which is requested. -/
def mutualPair : List Operation :=
  [.register "Alpha" (referring "Alpha" "Beta"), .register "Beta" (referring "Beta" "Alpha"),
    .request "Alpha"]

namespace mutualPair

theorem keeps (name : String) : .remove name ∉ mutualPair := by simp [mutualPair]

theorem completes : ¬ ((new {}).run mutualPair).Abandons := by
  have noneAbandoned : ((new {}).run mutualPair).heap.journal.toList.all
      (fun event => match event with | .abandoned .. => false | _ => true) = true := by
    decide +kernel
  intro abandons
  obtain ⟨name, bean, abandoned⟩ := abandons
  have impossible := List.all_eq_true.1 noneAbandoned _ abandoned
  cases impossible

theorem singleton : ((new {}).run mutualPair).IsSingleton "Alpha" := by
  have scope : (((new {}).run mutualPair).registry.find? "Alpha").map (·.scope) =
      some .singleton := by
    decide +kernel
  obtain ⟨definition, registered, isSingleton⟩ := Option.map_eq_some_iff.1 scope
  exact ⟨definition, registered, isSingleton⟩

theorem handsOut : ∃ bean, ((new {}).run mutualPair).Noted (.handedOut "Alpha" bean) := by
  have someHandedOut : ((new {}).run mutualPair).heap.journal.toList.any
      (fun event => match event with | .handedOut name _ => name = "Alpha" | _ => false) =
        true := by
    decide +kernel
  obtain ⟨event, noted, isHandOut⟩ := List.any_eq_true.1 someHandedOut
  cases event with
  | handedOut name bean =>
      have isAlpha : name = "Alpha" := by simpa using isHandOut
      subst isAlpha
      exact ⟨bean, noted⟩
  | _ => cases isHandOut

end mutualPair

/-- Two records are made of the requested singleton, but all that is handed out is the one
in the cache. -/
theorem mutualPair_shares_singletons :
    (∀ name, .remove name ∉ mutualPair) ∧ ¬ ((new {}).run mutualPair).Abandons ∧
      ((new {}).run mutualPair).IsSingleton "Alpha" ∧
        (∃ bean, ((new {}).run mutualPair).Noted (.handedOut "Alpha" bean)) ∧
          ∀ bean, ((new {}).run mutualPair).Noted (.handedOut "Alpha" bean) →
            ((new {}).run mutualPair).singletons.find? "Alpha" = some bean := by
  have shares := (run_shares_singletons rfl mutualPair.keeps mutualPair.completes).1
  exact ⟨mutualPair.keeps, mutualPair.completes, mutualPair.singleton, mutualPair.handsOut,
    fun bean => shares "Alpha" bean mutualPair.singleton⟩

end Container
end BeanContainer
