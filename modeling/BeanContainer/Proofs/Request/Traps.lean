import BeanContainer.Proofs.Request.Bookkeeping

/-!
# Cycles that cannot be resolved

Some cycles of dependencies are a trap: before any of their beans can be handed out, another
one of them must have been.  If no reference is optional, no request whose name leads into a
trap succeeds.  On the way there, singletons in creation are handed out without being
finished; a bean that was finished meanwhile leads into the trap only through one of them.
-/

namespace BeanContainer

namespace Container

/-- The names are a trap: each depends on another one by an argument of its constructor, or
it is the name of a prototype and depends on another one in any way. -/
def Traps (container : Container) (trapped : String → Prop) : Prop :=
  ∀ name, trapped name →
    (∃ next, trapped next ∧ container.registry.DependsByArgument name next) ∨
      container.IsPrototype name ∧ ∃ next, trapped next ∧ container.registry.DependsOn name next

theorem Traps.congr {container : Container} {trapped : String → Prop}
    (traps : container.Traps trapped) (other : Container)
    (registry : other.registry = container.registry) : other.Traps trapped := by
  simp only [Traps, IsPrototype, registry]
  exact traps

/-- A chain of dependencies leads from the name into the trap, through names that cannot be
handed out while they are in creation. -/
inductive Leads (trapped : String → Prop) (container : Container) : String → Prop
  | trapped {name : String} (isTrapped : trapped name) : Leads trapped container name
  | step {name next : String}
      (unshared : container.IsPrototype name ∨ container.inCreation.find? name = none)
      (depends : container.registry.DependsOn name next)
      (leads : Leads trapped container next) : Leads trapped container name

/-- No bean that leads into the trap is cached, and no singleton in the trap is in
creation. -/
structure Avoids (trapped : String → Prop) (container : Container) : Prop where
  cached : ∀ name bean, container.singletons.find? name = some bean →
    ¬ Leads trapped container name
  creating : ∀ name, trapped name → container.inCreation.find? name ≠ none →
    container.IsPrototype name

section Leads

variable {trapped : String → Prop} {container : Container} {name : String}

theorem IsPrototype.congr (prototype : container.IsPrototype name) (other : Container)
    (registry : other.registry = container.registry) : other.IsPrototype name := by
  rw [IsPrototype, registry]
  exact prototype

/-- Only the definitions and the beans in creation matter. -/
theorem Leads.congr (leads : Leads trapped container name) (other : Container)
    (registry : other.registry = container.registry)
    (inCreation : other.inCreation = container.inCreation) : Leads trapped other name := by
  induction leads with
  | trapped isTrapped => exact .trapped isTrapped
  | step unshared depends _ ih =>
      refine .step ?_ (registry ▸ depends) ih
      rw [inCreation]
      exact unshared.imp_left fun prototype => prototype.congr other registry

/-- Without beans in creation, every chain into the trap counts. -/
theorem Leads.of_reaches (idle : container.inCreation = .empty) {target : String}
    (reaches : container.registry.Reaches name target) (isTrapped : trapped target) :
    Leads trapped container name := by
  induction reaches using Relation.ReflTransGen.head_induction_on with
  | refl => exact .trapped isTrapped
  | head depends _ ih => exact .step (.inr (by simp [idle])) depends ih

/-- With one more bean in creation there are fewer chains. -/
theorem Leads.of_enter {raw : Bean} {entered : String}
    (fresh : container.inCreation.find? entered = none)
    (leads : Leads trapped (container.enter entered raw) name) :
    Leads trapped container name := by
  induction leads with
  | trapped isTrapped => exact .trapped isTrapped
  | @step name next unshared depends _ ih =>
      refine .step (unshared.imp_right fun absent => ?_) depends ih
      by_cases same : name = entered
      · subst same
        exact fresh
      · exact (Table.find?_insert_of_ne _ _ same).symm.trans absent

/-- A chain that no longer counts once a bean is in creation goes through this bean, and
then on from one of its dependencies. -/
theorem Leads.enter (raw : Bean) (entered : String) (leads : Leads trapped container name) :
    Leads trapped (container.enter entered raw) name ∨
      ∃ next, container.registry.DependsOn entered next ∧
        Leads trapped (container.enter entered raw) next := by
  induction leads with
  | trapped isTrapped => exact .inl (.trapped isTrapped)
  | @step name next unshared depends _ ih =>
      rcases ih with stillLeads | passes
      · by_cases same : name = entered
        · subst same
          exact .inr ⟨next, depends, stillLeads⟩
        · refine .inl (.step (unshared.imp_right fun absent => ?_) depends stillLeads)
          exact (Table.find?_insert_of_ne _ _ same).trans absent
      · exact .inr passes

/-- If no dependency of a bean in creation leads into the trap, chains of others do not need
it. -/
theorem Leads.around {raw : Bean} {entered : String}
    (apart : ∀ next, container.registry.DependsOn entered next →
      ¬ Leads trapped (container.enter entered raw) next)
    (leads : Leads trapped container name) : Leads trapped (container.enter entered raw) name := by
  rcases leads.enter raw entered with stillLeads | ⟨next, depends, passes⟩
  · exact stillLeads
  · exact absurd passes (apart next depends)

/-- If no dependency of the name leads into the trap, then the name does not. -/
theorem not_leads (traps : container.Traps trapped)
    (apart : ∀ next, container.registry.DependsOn name next → ¬ Leads trapped container next) :
    ¬ Leads trapped container name := by
  intro leads
  cases leads with
  | trapped isTrapped =>
      rcases traps name isTrapped with ⟨next, inTrap, depends⟩ | ⟨_, next, inTrap, depends⟩
      · exact apart next (.inl depends) (.trapped inTrap)
      · exact apart next depends (.trapped inTrap)
  | step _ depends leads => exact apart _ depends leads

end Leads

namespace Avoids

variable {trapped : String → Prop} {container : Container}

/-- Nothing is cached but what was, and the same beans are in creation. -/
theorem congr (avoids : Avoids trapped container) (other : Container)
    (registry : other.registry = container.registry)
    (inCreation : other.inCreation = container.inCreation)
    (singletons : other.singletons = container.singletons) : Avoids trapped other where
  cached name bean found leads := by
    rw [singletons] at found
    exact avoids.cached name bean found (leads.congr container registry.symm inCreation.symm)
  creating name isTrapped pending := by
    rw [inCreation] at pending
    exact (avoids.creating name isTrapped pending).congr other registry

theorem noted (event : Event) (avoids : Avoids trapped container) :
    Avoids trapped (container.noted event) :=
  avoids.congr (container.noted event) rfl rfl rfl

/-- A singleton in creation does not lead into the trap, as it can be handed out. -/
theorem not_leads_of_creating (avoids : Avoids trapped container) {name : String}
    (singleton : container.IsSingleton name) (pending : container.inCreation.find? name ≠ none) :
    ¬ Leads trapped container name := by
  intro leads
  cases leads with
  | trapped isTrapped => exact not_isPrototype singleton (avoids.creating name isTrapped pending)
  | step unshared =>
      rcases unshared with prototype | absent
      · exact not_isPrototype singleton prototype
      · exact pending absent

/-- A bean is entered, which is in the trap only if it is a prototype. -/
theorem enter (avoids : Avoids trapped container) {name : String} (raw : Bean)
    (fresh : container.inCreation.find? name = none)
    (prototype : trapped name → container.IsPrototype name) :
    Avoids trapped (container.enter name raw) where
  cached other bean found leads := avoids.cached other bean found (leads.of_enter fresh)
  creating other isTrapped pending := by
    by_cases same : other = name
    · subst same
      exact prototype isTrapped
    · have pending : (container.inCreation.insert name raw).find? other ≠ none := pending
      rw [Table.find?_insert_of_ne _ _ same] at pending
      exact avoids.creating other isTrapped pending

end Avoids

section Ways

variable {request : Request} {trapped : String → Prop} {base : Container}
  (required : base.registry.IsRequired) (traps : base.Traps trapped)
  (each : ∀ name start, Restores start (request name start).2)
  (avoidsEach : ∀ name start handout, start.registry = base.registry → Avoids trapped start →
    (request name start).1 = .ok handout →
      ¬ Leads trapped start name ∧ Avoids trapped (request name start).2)
include each avoidsEach

/-- Successful requests avoid the trap. -/
theorem Asks.avoids {start final : Container} {asked : Asked}
    (asks : Asks request start asked final) (registry : start.registry = base.registry)
    (avoiding : Avoids trapped start)
    (answered : ∀ entry ∈ asked, ∃ handout, entry.2 = .ok handout) :
    Avoids trapped final ∧ ∀ entry ∈ asked, ¬ Leads trapped start entry.1 := by
  induction asks with
  | nil => exact ⟨avoiding, by simp⟩
  | @cons start middle final name result asked isAnswer rest ih =>
      obtain ⟨handout, isHandout⟩ := answered _ List.mem_cons_self
      have restores := each name start
      have avoidsFirst := avoidsEach name start handout registry avoiding
        ((congrArg Prod.fst isAnswer).trans isHandout)
      rw [isAnswer] at restores avoidsFirst
      obtain ⟨avoidsRest, apart⟩ := ih (restores.registry.trans registry) avoidsFirst.2
        fun entry member => answered entry (List.mem_cons_of_mem _ member)
      refine ⟨avoidsRest, ?_⟩
      intro entry member leads
      rcases List.mem_cons.1 member with equal | later
      · subst equal
        exact avoidsFirst.1 leads
      · exact apart entry later (leads.congr middle restores.registry restores.inCreation)

include required

/-- If the arguments of a bean were resolved, none of them leads into the trap. -/
theorem Construction.avoids {definition : Definition} {name : String} {start built : Container}
    {raw : Bean} (registry : start.registry = base.registry) (avoiding : Avoids trapped start)
    (registered : start.registry.find? name = some definition)
    (construction : Construction request definition name start raw built) :
    Avoids trapped built ∧
      ∀ next, start.registry.DependsByArgument name next → ¬ Leads trapped start next := by
  cases construction with
  | @intro asked middle supply arguments cells idle asks gathers yields =>
      have isRequired := (required name definition (registry ▸ registered)).1
      have begun : Avoids trapped (start.beginConstruction name) :=
        avoiding.congr (start.beginConstruction name) rfl rfl rfl
      obtain ⟨avoidsLater, apart⟩ := asks.avoids each avoidsEach registry begun
        fun entry member => gathers.answered isRequired member
      refine ⟨avoidsLater.congr _ rfl rfl rfl, ?_⟩
      intro next depends leads
      obtain ⟨same, registeredAgain, point, isPoint, leadsTo⟩ := depends
      rw [registered] at registeredAgain
      cases registeredAgain
      obtain ⟨handout, member⟩ := gathers.handsOut isRequired isPoint leadsTo
      exact apart _ member (leads.congr (start.beginConstruction name) rfl rfl)

include traps

/-- If also the fields of a bean in creation were resolved, none of its dependencies leads into
the trap. -/
theorem Construction.avoids_developing {definition : Definition} {name : String}
    {start built middle : Container} {raw : Bean} {asked : Asked} {supply : Supply}
    (registry : start.registry = base.registry) (avoiding : Avoids trapped start)
    (registered : start.registry.find? name = some definition)
    (construction : Construction request definition name start raw built)
    (fresh : built.inCreation.find? name = none)
    (asks : Asks request ((built.noted (.entered name raw)).enter name raw) asked middle)
    {sees : Asked → Heap → Prop}
    (gathers : Gathers middle.registry middle.properties sees definition.fields .empty asked
      (.ok supply)) :
    Avoids trapped middle ∧ ∀ next, start.registry.DependsOn name next →
      ¬ Leads trapped ((built.noted (.entered name raw)).enter name raw) next := by
  obtain ⟨avoidsBuilt, byArgument⟩ :=
    construction.avoids required each avoidsEach registry avoiding registered
  have isRequired := (required name definition (registry ▸ registered)).2
  have restores := construction.restores each
  have freshLater : (built.noted (.entered name raw)).inCreation.find? name = none := fresh
  have avoidsEntered : Avoids trapped ((built.noted (.entered name raw)).enter name raw) := by
    refine (avoidsBuilt.noted _).enter raw fresh fun isTrapped => ?_
    rcases traps name isTrapped with ⟨next, inTrap, depends⟩ | ⟨prototype, _⟩
    · exact absurd (.trapped inTrap) (byArgument next (registry ▸ depends))
    · exact prototype.congr _ (restores.registry.trans registry)
  obtain ⟨avoidsMiddle, apart⟩ := asks.avoids each avoidsEach
    (restores.registry.trans registry) avoidsEntered
    fun entry member => gathers.answered isRequired member
  refine ⟨avoidsMiddle, ?_⟩
  intro next depends leads
  rcases depends with byArg | ⟨same, registeredAgain, point, isPoint, leadsTo⟩
  · exact byArgument next byArg
      ((leads.of_enter freshLater).congr start restores.registry.symm restores.inCreation.symm)
  · rw [registered] at registeredAgain
    cases registeredAgain
    have sameRegistry : middle.registry = start.registry :=
      (asks.restores each).registry.trans restores.registry
    rw [sameRegistry] at gathers
    obtain ⟨handout, member⟩ := gathers.handsOut isRequired isPoint leadsTo
    exact apart _ member leads

/-- If the fields of a bean in creation were resolved, its name does not lead into the trap, and
chains of others lead there without it. -/
theorem Construction.not_leads {definition : Definition} {name : String}
    {start built middle : Container} {raw : Bean} {asked : Asked} {supply : Supply}
    (registry : start.registry = base.registry) (avoiding : Avoids trapped start)
    (registered : start.registry.find? name = some definition)
    (construction : Construction request definition name start raw built)
    (fresh : built.inCreation.find? name = none)
    (asks : Asks request ((built.noted (.entered name raw)).enter name raw) asked middle)
    {sees : Asked → Heap → Prop}
    (gathers : Gathers middle.registry middle.properties sees definition.fields .empty asked
      (.ok supply)) :
    Avoids trapped middle ∧ ¬ Leads trapped start name ∧
      ∀ other, Leads trapped start other → Leads trapped middle other := by
  have restores := construction.restores each
  have asking := asks.restores each
  obtain ⟨avoidsMiddle, apart⟩ := construction.avoids_developing required traps each
    avoidsEach registry avoiding registered fresh asks gathers
  rw [← restores.registry] at apart
  have entered : ∀ {other}, Leads trapped start other →
      Leads trapped ((built.noted (.entered name raw)).enter name raw) other := by
    intro other leads
    have leadsBuilt : Leads trapped (built.noted (.entered name raw)) other :=
      leads.congr _ restores.registry restores.inCreation
    exact leadsBuilt.around apart
  have trapsEntered := traps.congr ((built.noted (.entered name raw)).enter name raw)
    (restores.registry.trans registry)
  refine ⟨avoidsMiddle, ?_, ?_⟩
  · exact fun leads => Container.not_leads trapsEntered apart (entered leads)
  · exact fun other leads => (entered leads).congr middle asking.registry asking.inCreation

/-- A bean that could be made does not lead into the trap. -/
theorem Making.avoids {definition : Definition} {name : String} {start final : Container}
    {handout : Handout} (registry : start.registry = base.registry)
    (avoiding : Avoids trapped start) (registered : start.registry.find? name = some definition)
    (making : Making request definition name start (.ok handout) final) :
    ¬ Leads trapped start name ∧ Avoids trapped final := by
  cases making with
  | shared construction pending scope =>
      obtain ⟨avoidsLater, _⟩ :=
        construction.avoids required each avoidsEach registry avoiding registered
      refine ⟨?_, avoidsLater.noted _⟩
      intro leads
      rw [(construction.restores each).inCreation] at pending
      refine avoiding.not_leads_of_creating ⟨definition, registered, scope⟩ ?_ leads
      rw [pending]
      nofun
  | @finished raw built middle asked heap construction fresh asks finishing =>
      have around := construction.develops each fresh asks heap
      cases finishing with
      | run gathers ran =>
          obtain ⟨avoidsMiddle, notLeads, stillLeads⟩ := construction.not_leads required traps each
            avoidsEach registry avoiding registered fresh asks gathers
          refine ⟨notLeads, Avoids.noted _ (Avoids.noted _ ⟨?_, ?_⟩)⟩
          · intro other bean found leads
            have leadsBefore : Leads trapped start other := leads.congr start
              (around.registry.symm.trans (keep_registry _ _ _ _).symm)
              (around.inCreation.symm.trans (keep_inCreation _ _ _ _).symm)
            rcases of_keep_singletons found with ⟨isName, _⟩ | before
            · subst isName
              exact notLeads leadsBefore
            · exact avoidsMiddle.cached other bean before (stillLeads other leadsBefore)
          · intro other isTrapped pending
            rw [keep_inCreation, around.inCreation] at pending
            refine (avoiding.creating other isTrapped pending).congr _ ?_
            rw [keep_registry, around.registry]

/-- However it is answered, a request that succeeds avoids the trap. -/
theorem Answering.avoids {name : String} {start final : Container} {handout : Handout}
    (registry : start.registry = base.registry) (avoiding : Avoids trapped start)
    (answering : Answering request name start (.ok handout) final) :
    ¬ Leads trapped start name ∧ Avoids trapped final := by
  cases answering with
  | cached found => exact ⟨avoiding.cached name _ found, avoiding.noted _⟩
  | made _ registered making =>
      exact making.avoids required traps each avoidsEach registry avoiding registered

end Ways

/-- No request whose name leads into a trap succeeds. -/
theorem request_avoids {trapped : String → Prop} {start : Container} {name : String}
    {handout : Handout} (required : start.registry.IsRequired) (traps : start.Traps trapped)
    (avoiding : Avoids trapped start) (succeeded : (request name start).1 = .ok handout) :
    ¬ Leads trapped start name := by
  rw [request_apply] at succeeded
  have avoids := requestWithin_induct (motive := fun name start' result final =>
    ∀ handout, start'.registry = start.registry → Avoids trapped start' → result = .ok handout →
      ¬ Leads trapped start' name ∧ Avoids trapped final) ?_ ?_ _ name start
        handout rfl avoiding succeeded
  · exact avoids.1
  · nofun
  · intro allowance avoidsEach name start' result final answering handout registry avoiding isOk
    subst isOk
    exact answering.avoids required traps (requestWithin_restores allowance)
      (fun name start' => avoidsEach name start') registry avoiding

end Container
end BeanContainer
