import BeanContainer.Proofs.Priority
import BeanContainer.Proofs.Run.Injection
import BeanContainer.Proofs.Run.Rest

/-!
# Lists of all beans of a type

A reference to all beans of a type is resolved to a list with one bean for each definition
that can be handed out as the type.  Every one of them is the answer to a request of its own,
and such a request may create beans and change the caches.  A bean that is in creation while
its list is resolved finds itself in it, if its own definition is among them.
-/

namespace BeanContainer

/-- The beans as one list of beans seen as the type. -/
def Value.ofBeans (seenAs : TypeName) (beans : List Bean) : Value := ⟨.list (.bean seenAs), beans⟩

namespace Container

open Running ContainerM

/-! ## States in which dependencies are resolved -/

/-- While requests are answered that started in the given state, dependencies are resolved in
this one: a name is marked as constructing or its bean was entered, and complete requests came
between. -/
inductive Resolving (start : Container) : Container → Prop
  | start : Resolving start start
  | constructing {state : Container} {name : String} {definition : Definition}
      (resolving : Resolving start state) (uncached : state.singletons.find? name = none)
      (registered : state.registry.find? name = some definition)
      (idle : name ∉ state.constructing) :
      Resolving start (state.beginConstruction name)
  | creating {state built : Container} {name : String} {definition : Definition} {raw : Bean}
      (resolving : Resolving start state) (uncached : state.singletons.find? name = none)
      (registered : state.registry.find? name = some definition)
      (construction : Construction request definition name state raw built)
      (fresh : built.inCreation.find? name = none) :
      Resolving start ((built.noted (.entered name raw)).enter name raw)
  | asked {state middle : Container} {asked : Asked} (resolving : Resolving start state)
      (asks : Asks request state asked middle) : Resolving start middle

theorem Nested.resolving {start state middle : Container} {name : String}
    (nested : Nested request name state middle) (resolving : Resolving start state)
    (uncached : state.singletons.find? name = none) : Resolving start middle := by
  cases nested with
  | constructing registered idle asks =>
      exact .asked (.constructing resolving uncached registered idle) asks
  | creating registered construction fresh asks =>
      exact .asked (.creating resolving uncached registered construction fresh) asks

/-- Whatever request is made while one is answered, it is made in such a state. -/
theorem Active.resolving {outermost call : Call} {count : Nat}
    (active : Active outermost count call) :
    Resolving outermost.container call.container := by
  induction active with
  | outermost => exact .start
  | inner _ calls ih => exact calls.nested.resolving ih calls.uncached

/-- No name is cached while it is marked. -/
def MarksUncached (container : Container) : Prop :=
  ∀ name, container.IsMarked name → container.singletons.find? name = none

theorem AtRest.marksUncached {container : Container} (rest : container.AtRest) :
    container.MarksUncached := by
  intro name isMarked
  rcases isMarked with constructing | creating
  · rw [rest.constructing] at constructing
    cases constructing
  · rw [rest.inCreation] at creating
    exact absurd rfl creating

theorem Restores.marksUncached {before after : Container} (restores : Restores before after)
    (uncached : before.MarksUncached) : after.MarksUncached := by
  intro name isMarked
  have wasMarked : before.IsMarked name := by
    rw [IsMarked, restores.constructing, restores.inCreation] at isMarked
    exact isMarked
  exact (restores.marked name wasMarked).trans (uncached name wasMarked)

/-- Names that are not cached may be marked. -/
theorem Resolving.marksUncached {start state : Container} (rest : start.AtRest)
    (resolving : Resolving start state) : state.MarksUncached := by
  induction resolving with
  | start => exact rest.marksUncached
  | constructing _ uncached _ _ ih =>
      intro other isMarked
      rcases isMarked with constructing | creating
      · rcases List.mem_cons.1 constructing with rfl | earlier
        · exact uncached
        · exact ih other (.inl earlier)
      · exact ih other (.inr creating)
  | @creating _ built name _ raw _ uncached _ construction _ ih =>
      have builtUncached := (construction.restores request_restores).marksUncached ih
      intro other isMarked
      by_cases same : other = name
      · rw [same]
        exact construction.uncached request_restores uncached
      · apply builtUncached other
        rcases isMarked with constructing | creating
        · exact .inl constructing
        · refine .inr fun absent => creating ?_
          exact (Table.find?_insert_of_ne built.inCreation raw same).trans absent
  | asked _ asks ih => exact (asks.restores request_restores).marksUncached ih

/-- A request for a bean in creation hands out this bean, if it succeeds. -/
theorem request_inCreation {state : Container} {name : String} {raw : Bean} {handout : Handout}
    (uncached : state.singletons.find? name = none)
    (creating : state.inCreation.find? name = some raw)
    (succeeded : (request name state).1 = .ok handout) : handout.bean = raw := by
  have answering := request_cases name state
  rw [succeeded] at answering
  generalize (request name state).2 = final at answering
  cases answering with
  | cached found =>
      rw [uncached] at found
      cases found
  | made _ _ making =>
      cases making with
      | shared construction pending =>
          rw [(construction.restores request_restores).inCreation, creating] at pending
          cases pending
          rfl
      | finished construction fresh =>
          rw [(construction.restores request_restores).inCreation, creating] at fresh
          cases fresh

/-! ## Answers -/

/-- The requests were made, and each handed out a bean. -/
def granted (answers : List (String × Handout)) : Asked :=
  answers.map fun answer => (answer.1, .ok answer.2)

/-- If all names were served, each has its answer, in the order of the names. -/
theorem Serves.exists_answers {target : BeanTarget} {names : List String} {asked : Asked}
    {handouts : List Handout} (serves : Serves target names asked (.ok handouts)) :
    ∃ answers : List (String × Handout), asked = granted answers ∧
      answers.map (·.1) = names ∧ answers.map (·.2) = handouts := by
  induction names generalizing asked handouts with
  | nil =>
      cases serves
      exact ⟨[], rfl, rfl, rfl⟩
  | cons name names ih =>
      cases serves with
      | @cons _ _ handout _ _ _ rest =>
          obtain ⟨answers, rfl, rfl, rfl⟩ := ih rest
          exact ⟨(name, handout) :: answers, rfl, rfl, rfl⟩

/-- The answer for a bean in creation is this bean. -/
theorem Asks.answers_inCreation {state final : Container} {answers : List (String × Handout)}
    (asks : Asks request state (granted answers) final) (uncached : state.MarksUncached)
    {name : String} {raw : Bean} (creating : state.inCreation.find? name = some raw)
    {handout : Handout} (member : (name, handout) ∈ answers) : handout.bean = raw := by
  have answered : (name, .ok handout) ∈ granted answers :=
    List.mem_map.2 ⟨(name, handout), member, rfl⟩
  obtain ⟨before, middle, after, later, _, asksBefore, isAnswer, _⟩ := asks.split answered
  have restores := asksBefore.restores request_restores
  have stillCreating : middle.inCreation.find? name = some raw :=
    restores.inCreation ▸ creating
  have isMarked : middle.IsMarked name := .inr (by simp [stillCreating])
  exact request_inCreation (restores.marksUncached uncached name isMarked) stillCreating
    (congrArg Prod.fst isAnswer)

/-! ## The list -/

/-- A list is injected in the order of the priorities that the beans have by then. -/
theorem inject_map_eq {target : BeanTarget} (multiple : target.isMultiple = true) (heap : Heap)
    (answers : List (String × Handout)) :
    target.inject heap ((answers.map (·.2)).map (·.bean)) =
      some (.ofBeans target.element ((answers.mergeSort fun one other =>
        heap.comesBefore one.2.bean other.2.bean).map (·.2.bean))) := by
  have sorted : (answers.mergeSort fun one other =>
      heap.comesBefore one.2.bean other.2.bean).map (·.2.bean) =
        ((answers.map (·.2)).map (·.bean)).mergeSort heap.comesBefore := by
    rw [List.map_map]
    exact List.map_mergeSort fun _ _ _ _ => rfl
  rw [sorted]
  exact if_pos multiple

/-- Resolves a reference to all beans of a type, with the definitions in the order in which
they are visited. -/
def resolveVisited (request : Request) (visited : List (String × Definition)) (field : String)
    (target : BeanTarget) : ContainerM (Option Value) := do
  let beans ← resolveEach request target (Candidates.among visited target.element).all
  let heap := (← get).heap
  some <$> collect target field ((heap.sortByPriority beans).map (·.2))

theorem resolveVisited_asking {registry : Registry} {properties : PropertyStore}
    {target : BeanTarget} (multiple : target.isMultiple = true)
    (visited : List (String × Definition)) (field : String) :
    Asking request registry properties (resolveVisited request visited field target)
      (Injected target (Candidates.among visited target.element).all) :=
  sortAndCollect_asking (keepsConfiguration request_restores) multiple field _

/-- A container visits its definitions in the order of its registry. -/
theorem resolvePoint_eq_resolveVisited {point : InjectionPoint} {reference : BeanReference}
    {target : BeanTarget} (dependency : point.dependency = .bean reference target)
    (wildcard : reference.isWildcard = true) (multiple : target.isMultiple = true)
    (request : Request) (state : Container) :
    resolvePoint request point state =
      resolveVisited request state.registry.visit point.name target state := by
  simp only [resolvePoint, dependency, wildcard, if_true, resolveTyped, multiple,
    bind_apply_ok (get_apply state)]
  rfl

/-- The answers are those for all definitions that can be handed out as the type, one for
each and in the order of the visit, and the order lists them by the priorities that their beans
have in the heap. -/
structure Lists (registry : Registry) (visited : List (String × Definition)) (heap : Heap)
    (element : TypeName) (answers order : List (String × Handout)) : Prop where
  complete : ∀ name, name ∈ answers.map (·.1) ↔
    ∃ definition, registry.find? name = some definition ∧
      definition.isAssignableTo element = true
  once : (answers.map (·.1)).Nodup
  visited : (answers.map (·.1)).Sublist (visited.map (·.1))
  ranked : Ranked (fun answer => heap.outlook answer.2.bean) answers order

theorem lists_among {registry : Registry} {visited : List (String × Definition)}
    (same : visited.Perm registry.visit) (heap : Heap) {element : TypeName}
    {answers : List (String × Handout)}
    (names : answers.map (·.1) = (Candidates.among visited element).all) :
    Lists registry visited heap element answers
      (answers.mergeSort fun one other => heap.comesBefore one.2.bean other.2.bean) := by
  have inOrder : (answers.map (·.1)).Sublist (visited.map (·.1)) := by
    rw [names]
    exact List.filter_sublist.map _
  have candidates : (Candidates.among visited element).all.Perm (registry.candidates element).all :=
    (same.filter _).map _
  constructor
  case complete =>
    intro name
    rw [names, candidates.mem_iff]
    exact Registry.mem_candidates_iff
  case once =>
    have apart : (visited.map (·.1)).Nodup :=
      (same.map _).nodup_iff.2 registry.visit_keys_nodup
    exact apart.sublist inOrder
  case visited => exact inOrder
  case ranked => exact ranked_mergeSort _ answers

/-- Whenever a reference to all beans of a type is resolved, be it for a field or for an
argument, and in whatever order the definitions are visited, the list that is injected has one
bean for each definition that can be handed out as the type, and no other: the one that was
handed out for its name, by the priority that it has in the end and else in the order of the visit.
A bean that is in creation meanwhile is itself the one for its name. -/
theorem resolvePoint_lists (properties : PropertyStore) (operations : List Operation)
    {state final : Container} {point : InjectionPoint} {reference : BeanReference}
    {target : BeanTarget} {visited : List (String × Definition)} {found : Option Value}
    (resolving : Resolving ((new properties).run operations) state)
    (dependency : point.dependency = .bean reference target)
    (wildcard : reference.isWildcard = true) (multiple : target.isMultiple = true)
    (same : visited.Perm state.registry.visit)
    (resolved : resolveVisited request visited point.name target state = (.ok found, final)) :
    (∃ answers order : List (String × Handout),
      found = some (.ofBeans target.element (order.map (·.2.bean))) ∧
      Asks request state (granted answers) final ∧
      Lists state.registry visited final.heap target.element answers order ∧
      ∀ name raw, state.inCreation.find? name = some raw → ∀ handout,
        (name, handout) ∈ answers → handout.bean = raw) ∧
    resolvePoint request point state =
      resolveVisited request state.registry.visit point.name target state := by
  refine ⟨?_, resolvePoint_eq_resolveVisited dependency wildcard multiple request state⟩
  obtain ⟨asked, asks, answer, serves, isResult⟩ :=
    resolveVisited_asking multiple visited point.name state rfl rfl
  rw [resolved] at asks isResult
  have uncached := resolving.marksUncached (run_atRest properties operations)
  cases answer with
  | error error => cases isResult
  | ok handouts =>
      have isFound : found = target.inject final.heap (handouts.map (·.bean)) :=
        Except.ok.inj isResult
      subst isFound
      obtain ⟨answers, rfl, names, rfl⟩ := serves.exists_answers
      refine ⟨answers, _, inject_map_eq multiple final.heap answers, asks,
        lists_among same final.heap names, ?_⟩
      intro name raw creating handout member
      exact asks.answers_inCreation uncached creating member

/-- The list can be had if all its beans can be had as the type. -/
theorem exists_resolveVisited_eq {state final : Container} {field : String} {target : BeanTarget}
    {visited : List (String × Definition)} {entries : List (Bean × Value)}
    (multiple : target.isMultiple = true)
    (each : resolveEach request target (Candidates.among visited target.element).all state =
      (.ok entries, final)) :
    ∃ found, resolveVisited request visited field target state = (.ok found, final) := by
  obtain ⟨asked, _, answer, _, isEntries⟩ := resolveEach_asking
    (keepsConfiguration request_restores) target _ state rfl rfl
  rw [each] at isEntries
  cases answer with
  | error error => cases isEntries
  | ok handouts =>
      cases isEntries
      obtain ⟨value, injected⟩ :
          ∃ value, target.inject final.heap (handouts.map (·.bean)) = some value :=
        ⟨_, if_pos multiple⟩
      have collected : target.collect? ((final.heap.sortByPriority (handouts.map fun handout =>
          (handout.bean, Value.ofBean target.element handout.bean))).map (·.2)) = some value := by
        rw [← injected, ← target.collect?_sortByPriority multiple, List.map_map]
        rfl
      refine ⟨some value, ?_⟩
      simp only [resolveVisited, bind_apply_ok each, bind_apply_ok (get_apply final), map_apply,
        collect_apply collected]
      rfl

/-- Tools of two priorities and some without, among them a bench that refers to all tools. -/
def toolkit : List Operation :=
  [.setBehaviour ⟨"Axe"⟩ { priority := some (.fixed 5) },
    .setBehaviour ⟨"Saw"⟩ { priority := some (.fixed 7) },
    .register "Axe" { type := ⟨"Axe"⟩, implements := [⟨"Tool"⟩] },
    .register "Bench"
      { type := ⟨"Bench"⟩
        implements := [⟨"Tool"⟩]
        fields := [⟨"tools", "tools", .bean ⟨⟨"Tool"⟩, true⟩, "autowire:?"⟩] },
    .register "Pen" { type := ⟨"Pen"⟩, implements := [⟨"Tool"⟩] },
    .register "Saw" { type := ⟨"Saw"⟩, implements := [⟨"Tool"⟩] }]

namespace toolkit

def start : Container := (new {}).run toolkit

def bench : Definition := (start.registry.find? "Bench").get (by decide +kernel)

/-- A bench on the heap. -/
def made : Bean × Heap := (start.beginConstruction "Bench").heap.create bench.type [] []

/-- The container once the bench is constructed. -/
def built : Container :=
  (((start.beginConstruction "Bench").withHeap made.2).endConstruction "Bench").noted
    (.constructed "Bench" bench made.1)

/-- The container while the fields of the bench are resolved. -/
def creating : Container := (built.noted (.entered "Bench" made.1)).enter "Bench" made.1

/-- The field of the bench that takes all tools. -/
def point : InjectionPoint where
  index := 0
  name := "tools"
  type := .list (.bean ⟨"Tool"⟩)
  dependency := .bean ⟨"?", false⟩ ⟨⟨"Tool"⟩, true⟩
  cell := some ⟨⟨"Bench"⟩, "tools"⟩

theorem declared : bench.fields = [point] := by decide +kernel

theorem registered : start.registry.find? "Bench" = some bench := (Option.some_get _).symm

theorem isBlank : bench.recipe = .blank := by
  have nameless : bench.recipe.methodName.isNone = true := by decide +kernel
  cases recipe : bench.recipe with
  | blank => rfl
  | calling method inputs =>
      rw [recipe] at nameless
      cases nameless

theorem construction : Construction request bench "Bench" start made.1 built := by
  have nothing : Gathers start.registry start.properties
      (Sees request (start.beginConstruction "Bench")) bench.recipe.points .empty []
      (.ok .empty) := by
    rw [isBlank]
    exact .all [] .nil .nil
  have yields : bench.recipe.Yields .empty [] [] := by
    rw [isBlank]
    exact ⟨rfl, rfl⟩
  exact .intro (by decide +kernel) .nil nothing yields

theorem resolving : Resolving start creating :=
  .creating .start (Option.isNone_iff_eq_none.1 (by decide +kernel)) registered construction
    (Option.isNone_iff_eq_none.1 (by decide +kernel))

/-- The definitions from the last name to the first. -/
def visited : List (String × Definition) := creating.registry.visit.reverse

theorem resolves : ∃ found final,
    resolveVisited request visited point.name ⟨⟨"Tool"⟩, true⟩ creating = (.ok found, final) := by
  have isOk : (resolveEach request ⟨⟨"Tool"⟩, true⟩ (Candidates.among visited ⟨"Tool"⟩).all
      creating).1.toOption.isSome = true := by
    decide +kernel
  generalize isOutcome : resolveEach request ⟨⟨"Tool"⟩, true⟩
    (Candidates.among visited ⟨"Tool"⟩).all creating = outcome at isOk
  obtain ⟨result, final⟩ := outcome
  cases result with
  | error error => cases isOk
  | ok entries =>
      obtain ⟨found, resolved⟩ := exists_resolveVisited_eq rfl isOutcome
      exact ⟨found, final, resolved⟩

end toolkit

/-- The list of a bench that is being wired has the bench itself as the bean of its name. -/
theorem toolkit_lists :
    Resolving ((new {}).run toolkit) toolkit.creating ∧ toolkit.bench.fields = [toolkit.point] ∧
    toolkit.visited.Perm toolkit.creating.registry.visit ∧
    ∃ found final, resolveVisited request toolkit.visited "tools" ⟨⟨"Tool"⟩, true⟩
        toolkit.creating = (.ok found, final) ∧
      ∃ answers order : List (String × Handout),
        found = some (.ofBeans ⟨"Tool"⟩ (order.map (·.2.bean))) ∧
        Lists toolkit.creating.registry toolkit.visited final.heap ⟨"Tool"⟩ answers order ∧
        ∃ handout, ("Bench", handout) ∈ answers ∧ handout.bean = toolkit.made.1 := by
  obtain ⟨found, final, resolved⟩ := toolkit.resolves
  have same := List.reverse_perm toolkit.creating.registry.visit
  obtain ⟨⟨answers, order, isList, _, lists, inCreation⟩, _⟩ :=
    resolvePoint_lists {} toolkit toolkit.resolving rfl (by decide) rfl same resolved
  have candidate : "Bench" ∈ (toolkit.creating.registry.candidates ⟨"Tool"⟩).all := by
    decide +kernel
  obtain ⟨⟨_, handout⟩, member, rfl⟩ :=
    List.mem_map.1 ((lists.complete "Bench").2 (Registry.mem_candidates_iff.1 candidate))
  have itself : handout.bean = toolkit.made.1 :=
    inCreation "Bench" _ (Table.find?_insert_self _ _ _) handout member
  exact ⟨toolkit.resolving, toolkit.declared, same, found, final, resolved, answers, order,
    isList, lists, handout, member, itself⟩

end Container
end BeanContainer
