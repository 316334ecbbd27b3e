import BeanContainer.Proofs.Places
import BeanContainer.Proofs.Request.Answers
import Mathlib.Data.List.Nodup

/-!
# What declared fields receive

A field receives what its own tag refers to: a property, one bean, or a list of beans.  It
receives nothing if its tag is empty, if it is optional and the bean of the given name is not
found, or if it is optional and no bean comes into question.  Fields with an empty tag have no
injection point, so what was found for the points is found again by the cells of the fields.
-/

namespace BeanContainer

/-- The raw values are stored for the key, or nothing is and they are what the default stands
for. -/
def PropertyStore.Provides (store : PropertyStore) (shape : Shape) (key : String)
    (default : Option String) (raws : List String) : Prop :=
  store.stored? shape key = .ok (some raws) ∨
    store.stored? shape key = .ok none ∧ ∃ text, default = some text ∧ raws = ofDefault shape text

/-- A property that could be read was converted from the raw values that are provided. -/
theorem PropertyStore.of_readAs {store : PropertyStore} {type : PropertyType} {key : String}
    {default : Option String} {content : type.valueType.Denote}
    (read : store.readAs type key default = .ok content) :
    ∃ raws, store.Provides type.shape key default raws ∧ type.convert key raws = .ok content := by
  obtain ⟨raws, isRead, converts⟩ := bind_eq_ok_iff.1 read
  refine ⟨raws, ?_, converts⟩
  obtain ⟨stored, isStored, chosen⟩ := bind_eq_ok_iff.1 isRead
  cases stored with
  | some values =>
      cases chosen
      exact .inl isStored
  | none =>
      cases default with
      | none => cases chosen
      | some text =>
          cases chosen
          exact .inr ⟨isStored, text, rfl, rfl⟩

/-- What the dependency refers to. -/
def Dependency.reference : Dependency → Reference
  | .property reference _ => .property reference
  | .bean reference _ => .bean reference

/-- A tag declares the dependency that it refers to. -/
theorem Dependency.parse_of_declare {slot : Slot} {name tag : String}
    {declared : Option Dependency} (isDeclared : declare slot name tag = .ok declared) :
    Reference.parse tag = .ok (declared.map reference) := by
  unfold declare at isDeclared
  split at isDeclared
  next => cases isDeclared
  next parsed =>
    cases isDeclared
    exact parsed
  next parsed =>
    cases slot with
    | property type =>
        cases isDeclared
        exact parsed
    | bean target => cases isDeclared
  next parsed =>
    cases slot with
    | property type => cases isDeclared
    | bean target =>
        cases isDeclared
        exact parsed

/-- A field without a point has an empty tag. -/
theorem Field.parse_of_pointless {field : Field} {owner : TypeName} {index : Nat}
    (declared : field.point? owner index = .ok none) : Reference.parse field.tag = .ok none := by
  unfold Field.point? at declared
  cases isDeclared : Dependency.declare field.slot field.name field.tag with
  | error defect =>
      rw [isDeclared] at declared
      cases declared
  | ok dependency =>
      rw [isDeclared] at declared
      cases dependency with
      | none => exact Dependency.parse_of_declare isDeclared
      | some dependency => cases declared

/-- The point of a field refers to what the tag says, and is written to the cell. -/
theorem Field.of_point? {field : Field} {owner : TypeName} {index : Nat} {point : InjectionPoint}
    (declared : field.point? owner index = .ok (some point)) :
    Reference.parse field.tag = .ok (some point.dependency.reference) ∧
      field.slot = point.dependency.slot ∧ point.cell = some ⟨owner, field.cell⟩ ∧
        point.type = field.slot.valueType := by
  unfold Field.point? at declared
  cases isDeclared : Dependency.declare field.slot field.name field.tag with
  | error defect =>
      rw [isDeclared] at declared
      cases declared
  | ok dependency =>
      rw [isDeclared] at declared
      cases dependency with
      | none => cases declared
      | some dependency =>
          cases declared
          exact ⟨Dependency.parse_of_declare isDeclared,
            (Dependency.slot_of_declare isDeclared).symm, rfl, rfl⟩

/-- The points of declared fields lie in the cells of the fields and have their types. -/
theorem Field.of_mem_points {owner : TypeName} {first : Nat} {fields : List Field}
    {points : List InjectionPoint} (declared : Field.points owner first fields = .ok points)
    {point : InjectionPoint} (isPoint : point ∈ points) :
    ∃ field ∈ fields, point.cell = some ⟨owner, field.cell⟩ ∧
      point.type = point.dependency.slot.valueType := by
  induction fields generalizing first points with
  | nil =>
      cases declared
      cases isPoint
  | cons field fields ih =>
      obtain ⟨found, own, declaredRest⟩ := bind_eq_ok_iff.1 declared
      obtain ⟨rest, others, equal⟩ := bind_eq_ok_iff.1 declaredRest
      cases equal
      rcases List.mem_append.1 isPoint with isFirst | isLater
      · rw [Option.mem_toList] at isFirst
        cases isFirst
        obtain ⟨_, slot, cell, type⟩ := Field.of_point? own
        exact ⟨field, List.mem_cons_self, cell, by rw [type, slot]⟩
      · obtain ⟨other, member, cell, type⟩ := ih others isLater
        exact ⟨other, List.mem_cons_of_mem _ member, cell, type⟩

/-- Fields with cells of their own have points with cells of their own. -/
theorem Field.points_apart {owner : TypeName} {first : Nat} {fields : List Field}
    {points : List InjectionPoint} (declared : Field.points owner first fields = .ok points)
    (distinct : (fields.map (·.cell)).Nodup) :
    points.Pairwise fun point other => ∀ cell, point.IsOn cell → ¬ other.IsOn cell := by
  induction fields generalizing first points with
  | nil =>
      cases declared
      exact .nil
  | cons field fields ih =>
      obtain ⟨found, own, declaredRest⟩ := bind_eq_ok_iff.1 declared
      obtain ⟨rest, others, equal⟩ := bind_eq_ok_iff.1 declaredRest
      cases equal
      obtain ⟨differs, distinctLater⟩ := List.nodup_cons.1 distinct
      have apart := ih others distinctLater
      cases found with
      | none => exact apart
      | some point =>
          refine List.pairwise_cons.2 ⟨?_, apart⟩
          intro other member cell ⟨_, isOn⟩ ⟨_, isOnOther⟩
          obtain ⟨otherField, isField, isCell, _⟩ := Field.of_mem_points others member
          rw [(Field.of_point? own).2.2.1] at isOn
          rw [isCell] at isOnOther
          obtain ⟨_, rfl⟩ := Cell.mk.inj (Option.some.inj isOn)
          obtain ⟨_, same⟩ := Cell.mk.inj (Option.some.inj isOnOther)
          exact differs (List.mem_map.2 ⟨otherField, isField, same⟩)

open Container in
/-- What the field receives, given what was asked for on its behalf and the heap that this left. -/
inductive Field.Receives (registry : Registry) (properties : PropertyStore) (view : Heap)
    (field : Field) : Asked → Option Value → Prop
  /-- The tag is empty. -/
  | untagged (tag : Reference.parse field.tag = .ok none) :
      Receives registry properties view field [] none
  | property {reference : PropertyReference} {type : PropertyType} {raws : List String}
      {content : type.valueType.Denote}
      (tag : Reference.parse field.tag = .ok (some (.property reference)))
      (slot : field.slot = .property type)
      (provides : properties.Provides type.shape reference.name reference.default raws)
      (converts : type.convert reference.name raws = .ok content) :
      Receives registry properties view field [] (some ⟨type.valueType, content⟩)
  /-- The bean of the given name. -/
  | named {reference : BeanReference} {target : BeanTarget} {handout : Handout}
      (tag : Reference.parse field.tag = .ok (some (.bean reference)))
      (slot : field.slot = .bean target) (named : reference.isWildcard = false)
      (single : target.isMultiple = false) :
      Receives registry properties view field [(reference.name, .ok handout)]
        (some (.ofBean target.element handout.bean))
  /-- The bean of the given name as a list of its own. -/
  | namedList {reference : BeanReference} {target : BeanTarget} {handout : Handout}
      (tag : Reference.parse field.tag = .ok (some (.bean reference)))
      (slot : field.slot = .bean target) (named : reference.isWildcard = false)
      (multiple : target.isMultiple = true) :
      Receives registry properties view field [(reference.name, .ok handout)]
        (some ⟨.list (.bean target.element), [handout.bean]⟩)
  /-- The bean of the given name is not found, which is tolerated. -/
  | missing {reference : BeanReference} {target : BeanTarget} {error : BeanError}
      (tag : Reference.parse field.tag = .ok (some (.bean reference)))
      (slot : field.slot = .bean target) (named : reference.isWildcard = false)
      (optional : reference.isOptional = true) (absent : error.isNotFound = true) :
      Receives registry properties view field [(reference.name, .error error)] none
  /-- The bean that is selected among the candidates. -/
  | selected {reference : BeanReference} {target : BeanTarget} {name : String} {handout : Handout}
      (tag : Reference.parse field.tag = .ok (some (.bean reference)))
      (slot : field.slot = .bean target) (wildcard : reference.isWildcard = true)
      (single : target.isMultiple = false)
      (selects : (registry.candidates target.element).Selects name) :
      Receives registry properties view field [(name, .ok handout)]
        (some (.ofBean target.element handout.bean))
  /-- There is no candidate, which is tolerated. -/
  | nothing {reference : BeanReference} {target : BeanTarget}
      (tag : Reference.parse field.tag = .ok (some (.bean reference)))
      (slot : field.slot = .bean target) (wildcard : reference.isWildcard = true)
      (single : target.isMultiple = false) (optional : reference.isOptional = true)
      (none : (registry.candidates target.element).all = []) :
      Receives registry properties view field [] .none
  /-- The beans of all candidates by the priorities that they have by then. -/
  | all {reference : BeanReference} {target : BeanTarget} {answers : List (String × Handout)}
      (tag : Reference.parse field.tag = .ok (some (.bean reference)))
      (slot : field.slot = .bean target) (wildcard : reference.isWildcard = true)
      (multiple : target.isMultiple = true)
      (names : answers.map (·.1) = (registry.candidates target.element).all) :
      Receives registry properties view field (answers.map fun answer => (answer.1, .ok answer.2))
        (some ⟨.list (.bean target.element),
          (answers.map (·.2.bean)).mergeSort view.comesBefore⟩)

namespace Container

/-- If all names were served, each was asked for once, in their order. -/
theorem Serves.answers {target : BeanTarget} {names : List String} {asked : Asked}
    {handouts : List Handout} (serves : Serves target names asked (.ok handouts)) :
    ∃ answers : List (String × Handout), answers.map (·.1) = names ∧ answers.map (·.2) = handouts ∧
      asked = answers.map fun answer => (answer.1, .ok answer.2) := by
  induction names generalizing asked handouts with
  | nil =>
      cases serves
      exact ⟨[], rfl, rfl, rfl⟩
  | cons name names ih =>
      cases serves with
      | @cons _ _ handout _ _ _ rest =>
          obtain ⟨answers, isNames, isHandouts, isAsked⟩ := ih rest
          exact ⟨(name, handout) :: answers, by simp [isNames], by simp [isHandouts],
            by simp [isAsked]⟩

theorem Serves.single {target : BeanTarget} {name : String} {asked : Asked}
    {handouts : List Handout} (serves : Serves target [name] asked (.ok handouts)) :
    ∃ handout, handouts = [handout] ∧ asked = [(name, .ok handout)] := by
  cases serves with
  | cons _ rest =>
      cases rest
      exact ⟨_, rfl, rfl⟩

variable {registry : Registry} {properties : PropertyStore} {view : Heap}

/-- What was served to the point of a tagged field, the field receives. -/
theorem Serves.receives {field : Field} {point : InjectionPoint} {reference : BeanReference}
    {target : BeanTarget} {names : List String} {asked : Asked} {handouts : List Handout}
    (tag : Reference.parse field.tag = .ok (some (.bean reference)))
    (slot : field.slot = .bean target) (dependency : point.dependency = .bean reference target)
    (isNames : point.names registry = .ok names)
    (serves : Serves target names asked (.ok handouts)) :
    field.Receives registry properties view asked
      (target.inject view (handouts.map (·.bean))) := by
  unfold InjectionPoint.names at isNames
  rw [dependency] at isNames
  simp only [] at isNames
  split at isNames
  next wildcard =>
    split at isNames
    next multiple =>
      cases isNames
      obtain ⟨answers, names, rfl, rfl⟩ := serves.answers
      rw [BeanTarget.inject, if_pos multiple, List.map_map]
      exact .all tag slot wildcard multiple names
    next notMultiple =>
      have single : target.isMultiple = false := by simpa using notMultiple
      cases selected : (registry.candidates target.element).select point.name point.type.name
          reference.isOptional with
      | error error =>
          rw [selected] at isNames
          cases isNames
      | ok found =>
          rw [selected] at isNames
          cases isNames
          cases found with
          | none =>
              cases serves
              obtain ⟨optional, none⟩ := Candidates.all_of_select selected
              rw [BeanTarget.inject, if_neg notMultiple]
              exact .nothing tag slot wildcard single optional none
          | some name =>
              obtain ⟨handout, rfl, rfl⟩ := serves.single
              rw [BeanTarget.inject, if_neg notMultiple]
              exact .selected tag slot wildcard single (Candidates.selects_of_select selected)
  next notWildcard =>
    have named : reference.isWildcard = false := by simpa using notWildcard
    cases isNames
    obtain ⟨handout, rfl, rfl⟩ := serves.single
    cases multiple : target.isMultiple with
    | true =>
        rw [BeanTarget.inject, if_pos multiple, List.map_singleton, List.mergeSort_singleton]
        exact .namedList tag slot named multiple
    | false =>
        rw [BeanTarget.inject, if_neg (by simp [multiple])]
        exact .named tag slot named multiple

/-- What the point of a tagged field receives, the field does. -/
theorem Outcome.receives {field : Field} {owner : TypeName} {index : Nat} {point : InjectionPoint}
    (declared : field.point? owner index = .ok (some point)) {asked : Asked} {found : Option Value}
    (outcome : Outcome registry properties view point asked (.ok found)) :
    field.Receives registry properties view asked found := by
  obtain ⟨tag, slot, _⟩ := Field.of_point? declared
  cases outcome with
  | read dependency isRead =>
      rw [dependency] at tag slot
      obtain ⟨raws, provides, converts⟩ := PropertyStore.of_readAs isRead
      exact .property tag slot provides converts
  | served dependency isNames serves injects =>
      rw [dependency] at tag slot
      rw [← injects]
      exact serves.receives tag slot dependency isNames
  | missing dependency named optional absent =>
      rw [dependency] at tag slot
      exact .missing tag slot named optional absent

/-- What was resolved for the points of declared fields, their fields receive, and it is found
by the cells of the points as by those of the fields.  A field without a point receives nothing in
whatever heap is seen by then. -/
theorem Resolves.receives {owner : TypeName} {first : Nat} {fields : List Field}
    {points : List InjectionPoint} {findings : List Finding} {sees : Asked → Heap → Prop}
    (declared : Field.points owner first fields = .ok points)
    (resolves : Resolves registry properties points findings)
    (witnessed : Witnessed sees findings)
    (seen : ∀ prior later, findings.flatMap (·.asked) = prior ++ later → ∃ view, sees prior view) :
    ∃ received : List Finding,
      List.Forall₂ (fun field finding =>
        field.Receives registry properties finding.view finding.asked finding.found)
        fields received ∧
      received.flatMap (·.asked) = findings.flatMap (·.asked) ∧ Witnessed sees received ∧
      ∀ cell value, (∃ pair ∈ points.zip findings, pair.1.IsOn cell ∧ pair.2.found = some value) ↔
        ∃ pair ∈ fields.zip received, pair.1.cell = cell ∧ pair.2.found = some value := by
  induction fields generalizing first points findings sees with
  | nil =>
      cases declared
      cases resolves
      exact ⟨[], .nil, rfl, .nil, by simp⟩
  | cons field fields ih =>
      obtain ⟨found, own, declaredRest⟩ := bind_eq_ok_iff.1 declared
      obtain ⟨rest, others, equal⟩ := bind_eq_ok_iff.1 declaredRest
      cases equal
      cases found with
      | none =>
          obtain ⟨received, receives, sameAsked, isSeen, cells⟩ := ih others resolves witnessed seen
          obtain ⟨view, seenFirst⟩ := seen [] _ rfl
          refine ⟨⟨[], view, none⟩ :: received,
            .cons (.untagged (Field.parse_of_pointless own)) receives, sameAsked,
            .cons seenFirst isSeen, ?_⟩
          intro cell value
          rw [List.zip_cons_cons, List.exists_mem_cons_iff]
          simpa using cells cell value
      | some point =>
          cases resolves with
          | @cons _ finding _ findings outcome resolvesRest =>
              obtain ⟨received, receives, sameAsked, isSeen, cells⟩ :=
                ih others resolvesRest witnessed.tail fun prior later split =>
                  seen (finding.asked ++ prior) later
                    (by rw [List.flatMap_cons, split, List.append_assoc])
              refine ⟨finding :: received, .cons (outcome.receives own) receives, ?_,
                .cons witnessed.head isSeen, ?_⟩
              · rw [List.flatMap_cons, List.flatMap_cons, sameAsked]
              intro cell value
              have isOn : point.IsOn cell ↔ field.cell = cell := by
                rw [InjectionPoint.IsOn, (Field.of_point? own).2.2.1]
                simp [eq_comm]
              show (∃ pair ∈ (point :: rest).zip (finding :: findings), _) ↔ _
              rw [List.zip_cons_cons, List.zip_cons_cons, List.exists_mem_cons_iff,
                List.exists_mem_cons_iff, cells cell value, isOn]

/-- Cells of their own hold what was received for their fields. -/
theorem forall₂_of_cells {fields : List Field} {received : List Finding}
    {cells : Table String Value} (distinct : (fields.map (·.cell)).Nodup)
    (length : fields.length = received.length)
    (filled : ∀ field ∈ fields, ∀ value, cells.find? field.cell = some value ↔
      ∃ pair ∈ fields.zip received, pair.1.cell = field.cell ∧ pair.2.found = some value) :
    List.Forall₂ (fun field finding => cells.find? field.cell = finding.found) fields received := by
  refine List.forall₂_iff_zip.2 ⟨length, ?_⟩
  intro field finding member
  have isField : field ∈ fields := (List.of_mem_zip member).1
  have apart : ∀ pair ∈ fields.zip received, pair.1.cell = field.cell → pair = (field, finding) := by
    have distinctPairs : ((fields.zip received).map fun pair => pair.1.cell).Nodup := by
      have first : (fields.zip received).map Prod.fst = fields :=
        List.map_fst_zip (Nat.le_of_eq length)
      rw [← first, List.map_map] at distinct
      exact distinct
    intro pair isPair same
    exact List.inj_on_of_nodup_map distinctPairs isPair member same
  apply Option.ext
  intro value
  rw [filled field isField]
  constructor
  · rintro ⟨pair, isPair, same, found⟩
    rw [apart pair isPair same] at found
    exact found
  · intro found
    exact ⟨(field, finding), member, rfl, found⟩

end Container
end BeanContainer
