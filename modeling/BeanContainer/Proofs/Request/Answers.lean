import BeanContainer.Container.Resolution
import BeanContainer.Proofs.Dependency
import BeanContainer.Proofs.Value
import Mathlib.Data.List.Forall2

/-!
# What is made of the answers to requests

Resolving an injection point requests the names that it leads to, in their order and up to
the first request that fails.  `Outcome` says what the point receives for the answers, and
`Gathers` what several points do.  Beside the answers this depends on the definitions and the
properties, which requests leave alone, and the order of a list on how the beans look by then.
-/

namespace BeanContainer

/-- Each item on the left has a related one on the right. -/
theorem exists_of_forall₂_left {α β : Type} {related : α → β → Prop} {left : List α}
    {right : List β} (pairs : List.Forall₂ related left right) {item : α} (member : item ∈ left) :
    ∃ other ∈ right, related item other := by
  induction pairs with
  | nil => simp at member
  | cons isRelated _ ih =>
      rcases List.mem_cons.1 member with equal | later
      · subst equal
        exact ⟨_, List.mem_cons_self, isRelated⟩
      · obtain ⟨other, inRight, isRelated⟩ := ih later
        exact ⟨other, List.mem_cons_of_mem _ inRight, isRelated⟩

/-- Each item on the right has a related one on the left. -/
theorem exists_of_forall₂_right {α β : Type} {related : α → β → Prop} {left : List α}
    {right : List β} (pairs : List.Forall₂ related left right) {item : β}
    (member : item ∈ right) : ∃ other ∈ left, related other item :=
  exists_of_forall₂_left pairs.flip member

/-- The bean can be handed out as the element type. -/
def Handout.Fits (handout : Handout) (element : TypeName) : Prop :=
  handout.casts.supports element = true ∧ handout.bean.type = handout.casts.source

instance (handout : Handout) (element : TypeName) : Decidable (handout.Fits element) :=
  inferInstanceAs (Decidable (_ ∧ _))

/-- The supply with what was found for the point, if anything was. -/
def Supply.offer (supply : Supply) (point : InjectionPoint) : Option Value → Supply
  | some value => supply.insert point.index value
  | none => supply

namespace Supply

theorem find?_offer_of_ne (supply : Supply) {point : InjectionPoint} {index : Nat}
    (differs : index ≠ point.index) (found : Option Value) :
    (supply.offer point found).find? index = supply.find? index := by
  cases found with
  | none => rfl
  | some value => exact Table.find?_insert_of_ne _ _ differs

theorem find?_offer_self {supply : Supply} {point : InjectionPoint}
    (absent : supply.find? point.index = none) (found : Option Value) :
    (supply.offer point found).find? point.index = found := by
  cases found with
  | none => exact absent
  | some value => exact Table.find?_insert_self _ _ _

end Supply

namespace Container

/-- Requests with what each of them came to. -/
abbrev Asked := List (String × Except BeanError Handout)

/-- The requests were made one after the other, each in the state that the one
before it left. -/
inductive Asks (request : Request) : Container → Asked → Container → Prop
  | nil {start : Container} : Asks request start [] start
  | cons {start middle final : Container} {name : String}
      {result : Except BeanError Handout} {asked : Asked} :
      request name start = (result, middle) → Asks request middle asked final →
      Asks request start ((name, result) :: asked) final

/-- The requests leave the heap if they are made one after the other from the container on. -/
def Sees (request : Request) (start : Container) (asked : Asked) (view : Heap) : Prop :=
  ∃ final, Asks request start asked final ∧ final.heap = view

/-- Requests leave the definitions and the properties alone. -/
def KeepsConfiguration (request : Request) : Prop :=
  ∀ name container, (request name container).2.registry = container.registry ∧
    (request name container).2.properties = container.properties

namespace Asks

variable {request : Request} {start middle final : Container} {asked later : Asked}

theorem append (first : Asks request start asked middle) (rest : Asks request middle later final) :
    Asks request start (asked ++ later) final := by
  induction first with
  | nil => exact rest
  | cons answered _ ih => exact .cons answered (ih rest)

/-- The first requests led to a state from which the others were made. -/
theorem of_append (asks : Asks request start (asked ++ later) final) :
    ∃ middle, Asks request start asked middle ∧ Asks request middle later final := by
  induction asked generalizing start with
  | nil => exact ⟨start, .nil, asks⟩
  | cons entry asked ih =>
      cases asks with
      | cons answered rest =>
          obtain ⟨middle, before, after⟩ := ih rest
          exact ⟨middle, .cons answered before, after⟩

/-- What every request does to the container, a sequence of requests does. -/
theorem related {relation : Container → Container → Prop}
    (refl : ∀ container, relation container container)
    (trans : ∀ {first second third}, relation first second → relation second third →
      relation first third)
    (each : ∀ name container, relation container (request name container).2)
    (asks : Asks request start asked final) : relation start final := by
  induction asks with
  | nil => exact refl _
  | @cons start middle final name result asked answered _ ih =>
      have moved := each name start
      rw [answered] at moved
      exact trans moved ih

theorem configuration (keeps : KeepsConfiguration request) (asks : Asks request start asked final) :
    final.registry = start.registry ∧ final.properties = start.properties := by
  induction asks with
  | nil => exact ⟨rfl, rfl⟩
  | @cons start middle final name result asked answered _ ih =>
      have first := keeps name start
      rw [answered] at first
      exact ⟨ih.1.trans first.1, ih.2.trans first.2⟩

/-- Each request was made in a state that the ones before it led to, and those after it
were made in the state that it left. -/
theorem split {entry : String × Except BeanError Handout} (asks : Asks request start asked final)
    (member : entry ∈ asked) :
    ∃ before middle after later, asked = before ++ entry :: later ∧
      Asks request start before middle ∧ request entry.1 middle = (entry.2, after) ∧
        Asks request after later final := by
  induction asks with
  | nil => simp at member
  | @cons start middle final name result asked answered rest ih =>
      rcases List.mem_cons.1 member with equal | later
      · subst equal
        exact ⟨[], start, middle, asked, rfl, .nil, answered, rest⟩
      · obtain ⟨before, reached, after, others, equal, asksBefore, isAnswer, asksLater⟩ := ih later
        exact ⟨(name, result) :: before, reached, after, others, by simp [equal],
          .cons answered asksBefore, isAnswer, asksLater⟩

end Asks

/-! ## What is made of the answers -/

/-- The names were requested one after the other, up to the first whose bean could not be
had or cannot be handed out as the element type. -/
inductive Serves (target : BeanTarget) :
    List String → Asked → Except BeanError (List Handout) → Prop
  | nil : Serves target [] [] (.ok [])
  | cons {name : String} {names : List String} {handout : Handout} {handouts : List Handout}
      {asked : Asked} (fits : handout.Fits target.element)
      (rest : Serves target names asked (.ok handouts)) :
      Serves target (name :: names) ((name, .ok handout) :: asked) (.ok (handout :: handouts))
  | failed {name : String} {names : List String} {error : BeanError} :
      Serves target (name :: names) [(name, .error error)] (.error error)
  | unfit {name : String} {names : List String} {handout : Handout}
      (unfit : ¬ handout.Fits target.element) :
      Serves target (name :: names) [(name, .ok handout)]
        (.error (.cast name target.element.text))
  | later {name : String} {names : List String} {handout : Handout} {asked : Asked}
      {error : BeanError} (fits : handout.Fits target.element)
      (rest : Serves target names asked (.error error)) :
      Serves target (name :: names) ((name, .ok handout) :: asked) (.error error)

/-- What resolving the point comes to, given the heap in which the beans are looked at, and what was
asked for. -/
inductive Outcome (registry : Registry) (properties : PropertyStore) (view : Heap)
    (point : InjectionPoint) : Asked → Except BeanError (Option Value) → Prop
  | read {reference : PropertyReference} {type : PropertyType} {content : type.valueType.Denote}
      (dependency : point.dependency = .property reference type)
      (found : properties.readAs type reference.name reference.default = .ok content) :
      Outcome registry properties view point [] (.ok (some ⟨type.valueType, content⟩))
  | unread {reference : PropertyReference} {type : PropertyType} {error : PropertyError}
      (dependency : point.dependency = .property reference type)
      (failed : properties.readAs type reference.name reference.default = .error error) :
      Outcome registry properties view point [] (.error (.property error))
  /-- No bean or several beans come into question. -/
  | undecided {reference : BeanReference} {target : BeanTarget} {error : BeanError}
      (dependency : point.dependency = .bean reference target)
      (names : point.names registry = .error error) :
      Outcome registry properties view point [] (.error error)
  | served {reference : BeanReference} {target : BeanTarget} {names : List String} {asked : Asked}
      {handouts : List Handout} {found : Option Value}
      (dependency : point.dependency = .bean reference target)
      (isNames : point.names registry = .ok names)
      (serves : Serves target names asked (.ok handouts))
      (injects : target.inject view (handouts.map (·.bean)) = found) :
      Outcome registry properties view point asked (.ok found)
  | unserved {reference : BeanReference} {target : BeanTarget} {names : List String}
      {asked : Asked} {error : BeanError} (dependency : point.dependency = .bean reference target)
      (isNames : point.names registry = .ok names)
      (serves : Serves target names asked (.error error)) :
      Outcome registry properties view point asked (.error error)
  /-- The bean is not found, which its reference tolerates. -/
  | missing {reference : BeanReference} {target : BeanTarget} {error : BeanError}
      (dependency : point.dependency = .bean reference target)
      (named : reference.isWildcard = false) (optional : reference.isOptional = true)
      (absent : error.isNotFound = true) :
      Outcome registry properties view point [(reference.name, .error error)] (.ok none)

/-- What was resolved for a point: the requests that were made for it, the heap that they left, and
what was found. -/
structure Finding where
  asked : Asked
  view : Heap
  found : Option Value

/-- What is resolved for points one after the other. -/
abbrev Resolves (registry : Registry) (properties : PropertyStore) :
    List InjectionPoint → List Finding → Prop :=
  List.Forall₂ fun point finding =>
    Outcome registry properties finding.view point finding.asked (.ok finding.found)

/-- The heaps of the findings are the ones that are seen after the requests up to there. -/
def Witnessed (sees : Asked → Heap → Prop) (findings : List Finding) : Prop :=
  ∀ earlier finding later, findings = earlier ++ finding :: later →
    sees (earlier.flatMap (·.asked) ++ finding.asked) finding.view

theorem Witnessed.nil {sees : Asked → Heap → Prop} : Witnessed sees [] := by
  intro earlier finding later split
  simp at split

theorem Witnessed.head {sees : Asked → Heap → Prop} {finding : Finding} {findings : List Finding}
    (witnessed : Witnessed sees (finding :: findings)) : sees finding.asked finding.view :=
  witnessed [] finding findings rfl

theorem Witnessed.tail {sees : Asked → Heap → Prop} {finding : Finding} {findings : List Finding}
    (witnessed : Witnessed sees (finding :: findings)) :
    Witnessed (fun later => sees (finding.asked ++ later)) findings := by
  intro earlier other later split
  have isSeen := witnessed (finding :: earlier) other later (by rw [split, List.cons_append])
  rwa [List.flatMap_cons, List.append_assoc] at isSeen

/-- Later findings see what the requests of the first one led to. -/
theorem Witnessed.cons {sees : Asked → Heap → Prop} {finding : Finding} {findings : List Finding}
    (first : sees finding.asked finding.view)
    (rest : Witnessed (fun later => sees (finding.asked ++ later)) findings) :
    Witnessed sees (finding :: findings) := by
  intro earlier other later split
  cases earlier with
  | nil =>
      cases split
      exact first
  | cons head earlier =>
      obtain ⟨rfl, isRest⟩ := List.cons.inj split
      rw [List.flatMap_cons, List.append_assoc]
      exact rest earlier other later isRest

/-- What was found for points as a supply, added to what is already there. -/
def supplyOf : List InjectionPoint → List (Option Value) → Supply → Supply
  | point :: points, found :: rest, supply => supplyOf points rest (supply.offer point found)
  | _, _, supply => supply

/-- What resolving the points comes to, given which heaps are seen after requests, what was asked
for, and the supply that was there before. -/
inductive Gathers (registry : Registry) (properties : PropertyStore) (sees : Asked → Heap → Prop)
    (points : List InjectionPoint) (prior : Supply) : Asked → Except BeanError Supply → Prop
  | all (findings : List Finding) (resolves : Resolves registry properties points findings)
      (witnessed : Witnessed sees findings) :
      Gathers registry properties sees points prior (findings.flatMap (·.asked))
        (.ok (supplyOf points (findings.map (·.found)) prior))
  | stopped {earlier later : List InjectionPoint} {point : InjectionPoint} {asked : Asked}
      {view : Heap} {error : BeanError} (findings : List Finding)
      (isPoint : points = earlier ++ point :: later)
      (resolves : Resolves registry properties earlier findings)
      (fails : Outcome registry properties view point asked (.error error)) :
      Gathers registry properties sees points prior (findings.flatMap (·.asked) ++ asked)
        (.error error)

/-- One more point was resolved first. -/
theorem Gathers.cons {registry : Registry} {properties : PropertyStore}
    {sees : Asked → Heap → Prop} {point : InjectionPoint} {points : List InjectionPoint}
    {prior : Supply} {asked later : Asked} {view : Heap} {found : Option Value}
    {result : Except BeanError Supply} (isSeen : sees asked view)
    (first : Outcome registry properties view point asked (.ok found))
    (rest : Gathers registry properties (fun later => sees (asked ++ later)) points
      (prior.offer point found) later result) :
    Gathers registry properties sees (point :: points) prior (asked ++ later) result := by
  cases rest with
  | all findings resolves witnessed =>
      exact .all (⟨asked, view, found⟩ :: findings) (.cons first resolves) (.cons isSeen witnessed)
  | stopped findings isPoint resolves fails =>
      subst isPoint
      rw [← List.append_assoc]
      exact .stopped (⟨asked, view, found⟩ :: findings) rfl (.cons first resolves) fails

theorem Gathers.mono {registry : Registry} {properties : PropertyStore}
    {sees also : Asked → Heap → Prop} {points : List InjectionPoint} {prior : Supply}
    {asked : Asked} {result : Except BeanError Supply}
    (gathers : Gathers registry properties sees points prior asked result)
    (implies : ∀ asked view, sees asked view → also asked view) :
    Gathers registry properties also points prior asked result := by
  cases gathers with
  | all findings resolves witnessed =>
      exact .all findings resolves fun earlier finding later split =>
        implies _ _ (witnessed earlier finding later split)
  | stopped findings isPoint resolves fails => exact .stopped findings isPoint resolves fails

/-! ## Where names and values come from -/

/-- The value holds one bean for each name that the point leads to, and that bean was the
answer to one of the requests, made for the name. -/
def Answers (registry : Registry) (point : InjectionPoint) (asked : Asked) (value : Value) :
    Prop :=
  ∃ names beans, point.names registry = .ok names ∧ value.beans.Perm beans ∧
    List.Forall₂ (fun name bean => ∃ handout : Handout, (name, .ok handout) ∈ asked ∧
      handout.bean = bean) names beans

theorem Answers.mono {registry : Registry} {point : InjectionPoint} {asked more : Asked}
    {value : Value} (answers : Answers registry point asked value)
    (subset : ∀ entry ∈ asked, entry ∈ more) : Answers registry point more value := by
  obtain ⟨names, beans, isNames, same, answered⟩ := answers
  refine ⟨names, beans, isNames, same, answered.imp ?_⟩
  intro name bean ⟨handout, isAnswer, isBean⟩
  exact ⟨handout, subset _ isAnswer, isBean⟩

/-- Every value in the supply holds answers to the requests of a point with its
index. -/
def Supplied (registry : Registry) (points : List InjectionPoint) (asked : Asked)
    (supply : Supply) : Prop :=
  ∀ index value, supply.find? index = some value →
    ∃ point ∈ points, point.index = index ∧ Answers registry point asked value

theorem Supplied.empty {registry : Registry} {points : List InjectionPoint} {asked : Asked} :
    Supplied registry points asked .empty := by
  intro index value found
  simp at found

/-- One more value keeps a supply accounted for. -/
theorem Supplied.offer {registry : Registry} {points : List InjectionPoint} {asked : Asked}
    {supply : Supply} {point : InjectionPoint} {found : Option Value}
    (supplied : Supplied registry points asked supply) (member : point ∈ points)
    (answers : ∀ value, found = some value → Answers registry point asked value) :
    Supplied registry points asked (supply.offer point found) := by
  cases found with
  | none => exact supplied
  | some value =>
      intro index other isFound
      rcases Table.find?_insert_eq_some_iff.1 isFound with ⟨same, isNew⟩ | ⟨_, before⟩
      · subst isNew
        exact ⟨point, member, same.symm, answers value rfl⟩
      · exact supplied index other before

namespace Serves

variable {target : BeanTarget} {names : List String} {asked : Asked}
  {answer : Except BeanError (List Handout)}

theorem mem_names (serves : Serves target names asked answer)
    {entry : String × Except BeanError Handout} (member : entry ∈ asked) : entry.1 ∈ names := by
  induction serves with
  | nil => simp at member
  | cons _ _ ih =>
      rcases List.mem_cons.1 member with equal | later
      · simp [equal]
      · exact List.mem_cons_of_mem _ (ih later)
  | failed => simp_all
  | unfit => simp_all
  | later _ _ ih =>
      rcases List.mem_cons.1 member with equal | later
      · simp [equal]
      · exact List.mem_cons_of_mem _ (ih later)

/-- The beans of served names are the answers, one for each name. -/
theorem handedOut {handouts : List Handout} (serves : Serves target names asked (.ok handouts)) :
    List.Forall₂ (fun name handout => (name, .ok handout) ∈ asked ∧ handout.Fits target.element)
      names handouts := by
  induction names generalizing asked handouts with
  | nil =>
      cases serves
      exact .nil
  | cons name names ih =>
      cases serves with
      | cons fits rest =>
          refine .cons ⟨List.mem_cons_self, fits⟩ ((ih rest).imp ?_)
          intro other handout ⟨answered, fits⟩
          exact ⟨List.mem_cons_of_mem _ answered, fits⟩

/-- If all names were served, every request has handed out a bean. -/
theorem answered {handouts : List Handout} (serves : Serves target names asked (.ok handouts))
    {entry : String × Except BeanError Handout} (member : entry ∈ asked) :
    ∃ handout, entry.2 = .ok handout := by
  induction names generalizing asked handouts with
  | nil =>
      cases serves
      simp at member
  | cons name names ih =>
      cases serves with
      | @cons _ _ handout _ _ _ rest =>
          rcases List.mem_cons.1 member with equal | later
          · exact ⟨handout, congrArg Prod.snd equal⟩
          · exact ih rest later

/-- A cycle is reported only if one of the requests reported it. -/
theorem circular {name : String} (serves : Serves target names asked (.error (.circular name))) :
    ∃ other, (other, .error (.circular name)) ∈ asked := by
  induction names generalizing asked with
  | nil => cases serves
  | cons other names ih =>
      cases serves with
      | failed => exact ⟨other, List.mem_singleton_self _⟩
      | later _ rest =>
          obtain ⟨reporting, member⟩ := ih rest
          exact ⟨reporting, List.mem_cons_of_mem _ member⟩

end Serves

namespace Outcome

variable {registry : Registry} {properties : PropertyStore} {view : Heap}
  {point : InjectionPoint} {asked : Asked} {result : Except BeanError (Option Value)}

/-- A point asks only for names that it leads to. -/
theorem leadsTo (outcome : Outcome registry properties view point asked result)
    {entry : String × Except BeanError Handout} (member : entry ∈ asked) :
    point.LeadsTo registry entry.1 := by
  cases outcome with
  | read => simp at member
  | unread => simp at member
  | undecided => simp at member
  | served _ isNames serves => exact ⟨_, isNames, serves.mem_names member⟩
  | unserved _ isNames serves => exact ⟨_, isNames, serves.mem_names member⟩
  | @missing reference _ _ dependency named =>
      refine ⟨[reference.name], by simp [InjectionPoint.names, dependency, named], ?_⟩
      rw [List.mem_singleton.1 member]
      exact List.mem_singleton_self _

/-- The injected value holds the beans that were handed out for the point. -/
theorem answers {value : Value}
    (outcome : Outcome registry properties view point asked (.ok (some value))) :
    Answers registry point asked value := by
  cases outcome with
  | read dependency =>
      refine ⟨[], [], by rw [InjectionPoint.names, dependency], ?_, .nil⟩
      rw [Value.beans, Value.beansOf_property]
  | @served _ target names asked handouts _ dependency isNames serves injects =>
      have fits : target.isMultiple = true ∨ (handouts.map (·.bean)).length ≤ 1 := by
        rw [List.length_map, ← serves.handedOut.length_eq]
        exact InjectionPoint.length_names_le dependency isNames
      refine ⟨names, handouts.map (·.bean), isNames, BeanTarget.beans_inject fits injects, ?_⟩
      rw [List.forall₂_map_right_iff]
      exact serves.handedOut.imp fun _ handout answered => ⟨handout, answered.1, rfl⟩

/-- A cycle is reported only if one of the requests reported it. -/
theorem circular {name : String}
    (outcome : Outcome registry properties view point asked (.error (.circular name))) :
    ∃ other, (other, .error (.circular name)) ∈ asked := by
  cases outcome with
  | undecided dependency isNames =>
      rcases point.names_kind isNames with absent | several
      · cases absent
      · cases several
  | unserved _ _ serves => exact serves.circular

/-- If nothing may be missing, every request has handed out a bean. -/
theorem answered {found : Option Value} (required : point.dependency.isOptional = false)
    (outcome : Outcome registry properties view point asked (.ok found))
    {entry : String × Except BeanError Handout} (member : entry ∈ asked) :
    ∃ handout, entry.2 = .ok handout := by
  cases outcome with
  | read => simp at member
  | served _ _ serves => exact serves.answered member
  | missing dependency _ optional =>
      rw [dependency] at required
      cases optional.symm.trans required

/-- If nothing may be missing, the beans of all names were handed out. -/
theorem handsOut {found : Option Value} (required : point.dependency.isOptional = false)
    (outcome : Outcome registry properties view point asked (.ok found)) {name : String}
    (leads : point.LeadsTo registry name) : ∃ handout, (name, .ok handout) ∈ asked := by
  obtain ⟨names, isNames, member⟩ := leads
  cases outcome with
  | read dependency =>
      rw [InjectionPoint.names, dependency] at isNames
      cases isNames
      simp at member
  | served _ sameNames serves =>
      rw [sameNames] at isNames
      cases isNames
      obtain ⟨handout, _, answered⟩ := exists_of_forall₂_left serves.handedOut member
      exact ⟨handout, answered.1⟩
  | missing dependency _ optional =>
      rw [dependency] at required
      cases optional.symm.trans required

end Outcome

/-- What is resolved for points holds answers to what they asked for. -/
theorem Resolves.supplied {registry : Registry} {properties : PropertyStore}
    {points all : List InjectionPoint} {findings : List Finding} {asked : Asked}
    {prior : Supply} (resolves : Resolves registry properties points findings)
    (pointsSubset : ∀ point ∈ points, point ∈ all)
    (askedSubset : ∀ finding ∈ findings, ∀ entry ∈ finding.asked, entry ∈ asked)
    (supplied : Supplied registry all asked prior) :
    Supplied registry all asked (supplyOf points (findings.map (·.found)) prior) := by
  induction resolves generalizing prior with
  | nil => exact supplied
  | @cons point finding points findings outcome _ ih =>
      refine ih (fun other member => pointsSubset other (List.mem_cons_of_mem _ member))
        (fun other member => askedSubset other (List.mem_cons_of_mem _ member)) ?_
      refine supplied.offer (pointsSubset point List.mem_cons_self) ?_
      intro value isFound
      have outcome : Outcome registry properties finding.view point finding.asked
          (.ok (some value)) := isFound ▸ outcome
      exact outcome.answers.mono (askedSubset finding List.mem_cons_self)

namespace Gathers

variable {registry : Registry} {properties : PropertyStore} {sees : Asked → Heap → Prop}
  {points : List InjectionPoint} {prior : Supply} {asked : Asked}
  {result : Except BeanError Supply}

/-- Points ask only for names that they lead to. -/
theorem leadsTo (gathers : Gathers registry properties sees points prior asked result)
    {entry : String × Except BeanError Handout} (member : entry ∈ asked) :
    ∃ point ∈ points, point.LeadsTo registry entry.1 := by
  cases gathers with
  | all _ resolves =>
      obtain ⟨item, isItem, inItem⟩ := List.mem_flatMap.1 member
      obtain ⟨point, isPoint, outcome⟩ := exists_of_forall₂_right resolves isItem
      exact ⟨point, isPoint, outcome.leadsTo inItem⟩
  | stopped _ isPoint resolves fails =>
      subst isPoint
      rcases List.mem_append.1 member with early | last
      · obtain ⟨item, isItem, inItem⟩ := List.mem_flatMap.1 early
        obtain ⟨point, isPoint, outcome⟩ := exists_of_forall₂_right resolves isItem
        exact ⟨point, by simp [isPoint], outcome.leadsTo inItem⟩
      · exact ⟨_, by simp, fails.leadsTo last⟩

theorem supplied {supply : Supply}
    (gathers : Gathers registry properties sees points .empty asked (.ok supply)) :
    Supplied registry points asked supply := by
  cases gathers with
  | all _ resolves =>
      refine resolves.supplied (fun _ => id) ?_ .empty
      intro item isItem entry inItem
      exact List.mem_flatMap.2 ⟨item, isItem, inItem⟩

/-- A cycle is reported only if one of the requests reported it. -/
theorem circular {name : String}
    (gathers : Gathers registry properties sees points prior asked (.error (.circular name))) :
    ∃ other, (other, .error (.circular name)) ∈ asked := by
  cases gathers with
  | stopped _ _ _ fails =>
      obtain ⟨other, member⟩ := fails.circular
      exact ⟨other, List.mem_append_right _ member⟩

/-- If nothing may be missing, every request has handed out a bean. -/
theorem answered {supply : Supply}
    (required : ∀ point ∈ points, point.dependency.isOptional = false)
    (gathers : Gathers registry properties sees points prior asked (.ok supply))
    {entry : String × Except BeanError Handout} (member : entry ∈ asked) :
    ∃ handout, entry.2 = .ok handout := by
  cases gathers with
  | all _ resolves =>
      obtain ⟨item, isItem, inItem⟩ := List.mem_flatMap.1 member
      obtain ⟨point, isPoint, outcome⟩ := exists_of_forall₂_right resolves isItem
      exact outcome.answered (required point isPoint) inItem

/-- If nothing may be missing, the beans of all names that the points lead to were handed
out. -/
theorem handsOut {supply : Supply}
    (required : ∀ point ∈ points, point.dependency.isOptional = false)
    (gathers : Gathers registry properties sees points prior asked (.ok supply))
    {point : InjectionPoint} (isPoint : point ∈ points) {name : String}
    (leads : point.LeadsTo registry name) : ∃ handout, (name, .ok handout) ∈ asked := by
  cases gathers with
  | all _ resolves =>
      obtain ⟨item, isItem, outcome⟩ := exists_of_forall₂_left resolves isPoint
      obtain ⟨handout, inItem⟩ := outcome.handsOut (required point isPoint) leads
      exact ⟨handout, List.mem_flatMap.2 ⟨item, isItem, inItem⟩⟩

end Gathers

end Container
end BeanContainer
