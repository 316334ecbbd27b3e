import BeanContainer.Proofs.Heap.Wiring

/-!
# What writing fields does to cells

Fields are written one after another, up to the first that cannot be.  The values supplied for
the fields before it stand in their cells then, its own value is used up, the values for the
fields after it are left over, and nothing else has changed.  A cell is written once: whatever is
written later, also to the same bean, it keeps its first value.
-/

namespace BeanContainer

/-! ## Records of a heap -/

namespace Heap

variable {heap : Heap} {record : Record}

theorem getElem?_eq_read (inside : record.index < heap.contents.size) :
    heap.contents[record.index]? = some (heap.read record) := by
  simp [read, Array.getElem?_eq_getElem inside]

/-- A record of the heap is read as it was last changed. -/
theorem read_update (inside : record.index < heap.contents.size)
    (change : Contents → Contents) :
    (heap.update record change).read record = change (heap.read record) := by
  simp [read, update, inside, Array.getElem_modify]

/-- Changing one record leaves the others as they are. -/
theorem read_update_of_ne {other : Record} (apart : other.index ≠ record.index)
    (change : Contents → Contents) : (heap.update other change).read record = heap.read record := by
  simp [read, update, Array.getElem?_modify, apart]

theorem update_size (change : Contents → Contents) :
    (heap.update record change).contents.size = heap.contents.size := by
  simp [update]

/-- Only what a change makes of the record as it is counts. -/
theorem update_congr {change other : Contents → Contents}
    (agree : change (heap.read record) = other (heap.read record)) :
    heap.update record change = heap.update record other := by
  have sameContents :
      heap.contents.modify record.index change = heap.contents.modify record.index other := by
    apply Array.ext
    · simp
    · intro index inside _
      rw [Array.getElem_modify, Array.getElem_modify]
      split
      next same =>
        subst same
        have isInside : record.index < heap.contents.size := by simpa using inside
        have isRead : heap.read record = heap.contents[record.index] := by
          simp [read, Array.getElem?_eq_getElem isInside]
        rw [isRead] at agree
        exact agree
      next => rfl
  rw [update, update, sameContents]

/-- A record that is changed to what it is leaves the heap as it is. -/
theorem update_read (record : Record) :
    (heap.update record fun _ => heap.read record) = heap := by
  have same : heap.contents.modify record.index (fun contents => contents) = heap.contents := by
    apply Array.ext
    · simp
    · intro index _ _
      rw [Array.getElem_modify]
      split <;> rfl
  have identity := @update_congr heap record (fun _ => heap.read record) (fun contents => contents)
    rfl
  rw [identity, update, same]

/-- Of two changes of a record one after the other, the later one counts. -/
theorem update_update (first second : Contents → Contents) :
    (heap.update record first).update record second =
      heap.update record fun contents => second (first contents) := by
  have sameContents : (heap.contents.modify record.index first).modify record.index second =
      heap.contents.modify record.index fun contents => second (first contents) := by
    apply Array.ext
    · simp
    · intro index _ _
      rw [Array.getElem_modify, Array.getElem_modify, Array.getElem_modify]
      split <;> rfl
  rw [update, update, update, sameContents]

/-- A cell that could be filled was unset and holds the value now. -/
theorem find?_of_fill? {written : Heap} {cell : String} {value : Value}
    (inside : record.index < heap.contents.size)
    (filled : heap.fill? record cell value = some written) {name : String} :
    (written.read record).cells.find? name =
      if name = cell then some value else (heap.read record).cells.find? name := by
  rw [(fill?_eq_some filled).2, read_update inside]
  by_cases same : name = cell
  · subst same
    simp
  · rw [if_neg same]
    exact Table.find?_insert_of_ne _ _ same

/-- A record of which a cell is set is in the heap. -/
theorem inside_of_set {cell : String} {value : Value}
    (isSet : (heap.read record).cells.find? cell = some value) :
    record.index < heap.contents.size := by
  apply Nat.lt_of_not_le
  intro outside
  have blank : heap.read record = {} := by simp [read, Array.getElem?_eq_none outside]
  rw [blank] at isSet
  cases isSet

/-- A cell that is set keeps its value when a cell is filled, of this record or another one. -/
theorem find?_of_fill?_of_set {other : Record} {written : Heap} {cell name : String}
    {content value : Value} (filled : heap.fill? other cell content = some written)
    (isSet : (heap.read record).cells.find? name = some value) :
    (written.read record).cells.find? name = some value := by
  by_cases same : other.index = record.index
  · have isRead : ∀ either : Heap, either.read record = either.read other := by
      intro either
      rw [read, read, same]
    rw [isRead] at isSet ⊢
    have differs : name ≠ cell := by
      intro equal
      rw [equal, (fill?_eq_some filled).1] at isSet
      cases isSet
    rw [find?_of_fill? (inside_of_set isSet) filled, if_neg differs]
    exact isSet
  · rw [(fill?_eq_some filled).2, read_update_of_ne same]
    exact isSet

/-! ## Written values -/

/-- The values supplied for the points were written to the target, and nothing else was: a cell
of it holds what it held before or what was supplied for a point on it, and beside its cells
nothing differs. -/
structure Writes (target : Bean) (points : List InjectionPoint) (supply : Supply)
    (before after : Heap) : Prop where
  rest : after = before.update target.innermost fun contents =>
    { contents with cells := (after.read target.innermost).cells }
  cells : ∀ cell value, (after.read target.innermost).cells.find? cell = some value ↔
    (before.read target.innermost).cells.find? cell = some value ∨
      ∃ point ∈ points, point.IsOn cell ∧ supply.find? point.index = some value

namespace Writes

variable {target : Bean} {points others : List InjectionPoint} {supply other : Supply}
  {first second third : Heap}

theorem nil (heap : Heap) : Writes target [] supply heap heap where
  rest := (heap.update_read target.innermost).symm.trans (update_congr rfl)
  cells cell value := by simp

theorem inside (writes : Writes target points supply first second)
    (inside : target.innermost.index < first.contents.size) :
    target.innermost.index < second.contents.size := by
  rw [writes.rest, update_size]
  exact inside

theorem trans (one : Writes target points supply first second)
    (two : Writes target others supply second third) :
    Writes target (points ++ others) supply first third where
  rest := by
    have joined := congrArg (fun heap : Heap => heap.update target.innermost fun contents =>
      { contents with cells := (third.read target.innermost).cells }) one.rest
    exact two.rest.trans (joined.trans (update_update _ _))
  cells cell value := by
    rw [two.cells cell value, one.cells cell value, or_assoc]
    apply or_congr Iff.rfl
    simp only [List.mem_append, or_and_right, exists_or]

/-- Only what is supplied for the points counts. -/
theorem congr (agree : ∀ point ∈ points, supply.find? point.index = other.find? point.index)
    (writes : Writes target points supply first second) :
    Writes target points other first second where
  rest := writes.rest
  cells cell value := by
    rw [writes.cells cell value]
    apply or_congr Iff.rfl
    constructor
    · intro written
      obtain ⟨point, member, isOn, supplied⟩ := written
      exact ⟨point, member, isOn, (agree point member).symm.trans supplied⟩
    · intro written
      obtain ⟨point, member, isOn, supplied⟩ := written
      exact ⟨point, member, isOn, (agree point member).trans supplied⟩

/-- A point without a value makes no difference. -/
theorem pass {point : InjectionPoint} (absent : supply.find? point.index = none)
    (writes : Writes target points supply first second) :
    Writes target (point :: points) supply first second where
  rest := writes.rest
  cells cell value := by
    rw [writes.cells cell value]
    simp [absent]

end Writes
end Heap

/-- The field of a point is kept in its cell only. -/
theorem InjectionPoint.isOn_iff {point : InjectionPoint} {cell : Cell} {name : String}
    (isCell : point.cell = some cell) : point.IsOn name ↔ name = cell.name := by
  rw [IsOn, isCell]
  constructor
  · intro isOn
    obtain ⟨owner, same⟩ := isOn
    cases same
    rfl
  · intro same
    subst same
    exact ⟨cell.owner, rfl⟩

/-- Writing a value for a point writes that value. -/
theorem InjectionPoint.write_writes {point : InjectionPoint} {target : Bean} {value : Value}
    {heap written : Heap} (inside : target.innermost.index < heap.contents.size)
    (done : point.write target value heap = .ok written) {supply : Supply}
    (supplied : supply.find? point.index = some value) :
    Heap.Writes target [point] supply heap written := by
  obtain ⟨record, cell, rfl, isOn, filled⟩ := write_eq_ok done
  have isWritten := (Heap.fill?_eq_some filled).2
  have insideRecord : record.index < heap.contents.size := inside
  constructor
  · have isRead : written.read record = { heap.read record with
        cells := (heap.read record).cells.insert cell.name value } := by
      rw [isWritten, Heap.read_update insideRecord]
    rw [Bean.innermost, isRead]
    exact isWritten.trans (Heap.update_congr rfl)
  · intro name held
    rw [Bean.innermost, Heap.find?_of_fill? insideRecord filled]
    simp only [List.mem_singleton, exists_eq_left, isOn_iff isOn, supplied, Option.some.injEq]
    by_cases same : name = cell.name
    · subst same
      simp [(Heap.fill?_eq_some filled).1]
    · simp [same]

namespace Supply

/-! ## What is left over -/

/-- The supply without the values for the points. -/
def without (supply : Supply) (points : List InjectionPoint) : Supply :=
  supply.filterKeys fun index => index ∉ points.map (·.index)

section Without

variable {supply : Supply} {point : InjectionPoint} {points : List InjectionPoint}

theorem find?_without (supply : Supply) (points : List InjectionPoint) (index : Nat) :
    (supply.without points).find? index =
      if index ∈ points.map (·.index) then none else supply.find? index := by
  rw [without, Table.find?_filterKeys]
  by_cases member : index ∈ points.map (·.index)
  · simp only [member, not_true_eq_false, decide_false, Bool.false_eq_true, if_false, if_true]
  · simp only [member, not_false_eq_true, decide_true, if_true, if_false]

theorem without_nil (supply : Supply) : supply.without [] = supply := by
  apply Table.ext_find?
  intro index
  simp [find?_without]

theorem without_cons (supply : Supply) (point : InjectionPoint) (points : List InjectionPoint) :
    supply.without (point :: points) = Supply.without (supply.erase point.index) points := by
  apply Table.ext_find?
  intro index
  rw [find?_without, find?_without]
  by_cases same : index = point.index
  · subst same
    simp
  · rw [Table.find?_erase_of_ne _ same]
    simp [same]

/-- A point without a value takes nothing. -/
theorem without_of_absent (absent : supply.find? point.index = none) :
    supply.without (point :: points) = supply.without points := by
  have same : supply.erase point.index = supply := by
    apply Table.ext_find?
    intro index
    by_cases same : index = point.index
    · subst same
      simp [absent]
    · exact Table.find?_erase_of_ne _ same
  rw [without_cons, same]

end Without

/-! ## How writing ends -/

/-- The outcomes of writing the values supplied for points.  Either all of them are written and
taken, or there is a first point whose value cannot be written: the values for the points before
it are written, this value is taken too, and the values for the points after it are left. -/
inductive Ends (target : Bean) (points : List InjectionPoint) (supply : Supply) (heap : Heap) :
    Except BeanError Unit × Supply × Heap → Prop
  | complete {left : Supply} {written : Heap}
      (writes : Heap.Writes target points supply heap written)
      (taken : left = supply.without points) :
      Ends target points supply heap (.ok (), left, written)
  | stopped {front back : List InjectionPoint} {point : InjectionPoint} {value : Value}
      {error : BeanError} {left : Supply} {written : Heap}
      (split : points = front ++ point :: back)
      (completes : supply.write target front heap = (.ok (), supply.without front, written))
      (writes : Heap.Writes target front supply heap written)
      (supplied : supply.find? point.index = some value)
      (fails : point.write target value written = .error error)
      (taken : left = supply.without (front ++ [point]))
      (remain : ∀ later ∈ back, left.find? later.index = supply.find? later.index) :
      Ends target points supply heap (.error error, left, written)

namespace Ends

variable {target : Bean} {point : InjectionPoint} {points : List InjectionPoint} {supply : Supply}
  {heap : Heap} {outcome : Except BeanError Unit × Supply × Heap}

/-- A point without a value is passed over. -/
theorem pass (absent : supply.find? point.index = none)
    (ends : Ends target points supply heap outcome) :
    Ends target (point :: points) supply heap outcome := by
  cases ends with
  | complete writes taken =>
      exact .complete (writes.pass absent) (taken.trans (without_of_absent absent).symm)
  | @stopped front back other value error left written split completes writes supplied fails taken
      remain =>
      have completesHere : supply.write target (point :: front) heap =
          (.ok (), supply.without (point :: front), written) := by
        rw [without_of_absent absent, write, absent]
        exact completes
      refine .stopped (congrArg (point :: ·) split) completesHere (writes.pass absent) supplied fails
        ?_ remain
      exact taken.trans (without_of_absent absent).symm

/-- After a point whose value could be written, its value is gone. -/
theorem step {value : Value} {halfway : Heap}
    (inside : target.innermost.index < heap.contents.size)
    (apart : ∀ other ∈ points, point.index ≠ other.index)
    (found : supply.find? point.index = some value)
    (wrote : point.write target value heap = .ok halfway)
    (ends : Ends target points (supply.erase point.index) halfway outcome) :
    Ends target (point :: points) supply heap outcome := by
  have first := point.write_writes inside wrote found
  have agree : ∀ other ∈ points,
      (supply.erase point.index).find? other.index = supply.find? other.index :=
    fun other member => Table.find?_erase_of_ne _ (apart other member).symm
  cases ends with
  | complete writes taken =>
      refine .complete (first.trans (writes.congr agree)) ?_
      rw [taken, without_cons]
  | @stopped front back other value error left written split completes writes supplied fails taken
      remain =>
      have inFront : ∀ earlier ∈ front, earlier ∈ points := by
        intro earlier member
        rw [split]
        exact List.mem_append_left _ member
      have isPoint : other ∈ points := by
        rw [split]
        exact List.mem_append_right _ List.mem_cons_self
      have completesHere : supply.write target (point :: front) heap =
          (.ok (), supply.without (point :: front), written) := by
        simp only [write, found, wrote, without_cons]
        exact completes
      have writesHere : Heap.Writes target (point :: front) supply heap written :=
        first.trans (writes.congr fun earlier member => agree earlier (inFront _ member))
      refine .stopped (congrArg (point :: ·) split) completesHere writesHere
        ((agree other isPoint).symm.trans supplied) fails ?_ ?_
      · rw [taken, List.cons_append, without_cons]
      · intro later member
        have isLater : later ∈ points := by
          rw [split]
          exact List.mem_append_right _ (List.mem_cons_of_mem _ member)
        exact (remain later member).trans (agree later isLater)

end Ends

/-- However writing fields ends, it is one of these outcomes. -/
theorem ends_write {points : List InjectionPoint}
    (distinct : points.Pairwise fun point other => point.index ≠ other.index) (target : Bean)
    (supply : Supply) {heap : Heap} (inside : target.innermost.index < heap.contents.size) :
    Ends target points supply heap (supply.write target points heap) := by
  induction points generalizing supply heap with
  | nil => exact .complete (.nil heap) supply.without_nil.symm
  | cons point points ih =>
      have apart := (List.pairwise_cons.1 distinct).1
      have distinctLater := (List.pairwise_cons.1 distinct).2
      cases found : supply.find? point.index with
      | none =>
          simp only [write, found]
          exact .pass found (ih distinctLater supply inside)
      | some value =>
          cases wrote : point.write target value heap with
          | ok halfway =>
              simp only [write, found, wrote]
              have first := point.write_writes inside wrote found
              exact .step inside apart found wrote (ih distinctLater _ (first.inside inside))
          | error error =>
              simp only [write, found, wrote]
              have split : point :: points = [] ++ point :: points := rfl
              refine .stopped split ?_ (.nil heap) found wrote ?_ ?_
              · rw [without_nil, write]
              · rw [List.nil_append, without_cons, without_nil]
              · intro later member
                exact Table.find?_erase_of_ne _ (apart later member).symm

/-- If all fields could be written, exactly the values supplied for them were. -/
theorem writes_of_write {points : List InjectionPoint} {target : Bean} {supply left : Supply}
    {heap written : Heap}
    (distinct : points.Pairwise fun point other => point.index ≠ other.index)
    (inside : target.innermost.index < heap.contents.size)
    (done : supply.write target points heap = (.ok (), left, written)) :
    Heap.Writes target points supply heap written := by
  have ends := ends_write distinct target supply inside
  rw [done] at ends
  cases ends with
  | complete writes taken => exact writes

/-! ## Rounds of writing -/

/-- A cell that is set stays as it is while fields are written, also if not all of them can be. -/
theorem write_keeps {record : Record} {cell : String} {value : Value} (target : Bean)
    (points : List InjectionPoint) (supply : Supply) {heap : Heap}
    (isSet : (heap.read record).cells.find? cell = some value) :
    ((supply.write target points heap).2.2.read record).cells.find? cell = some value := by
  induction points generalizing supply heap with
  | nil => exact isSet
  | cons point points ih =>
      cases found : supply.find? point.index with
      | none =>
          simp only [write, found]
          exact ih supply isSet
      | some held =>
          cases wrote : point.write target held heap with
          | error error =>
              simp only [write, found, wrote]
              exact isSet
          | ok halfway =>
              simp only [write, found, wrote]
              obtain ⟨_, _, _, _, filled⟩ := InjectionPoint.write_eq_ok wrote
              exact ih _ (Heap.find?_of_fill?_of_set filled isSet)

/-- The heap after rounds of writing to the target, each for some points from some supply. -/
def writeRounds (target : Bean) (rounds : List (List InjectionPoint × Supply)) (heap : Heap) :
    Heap :=
  rounds.foldl (fun heap round => (round.2.write target round.1 heap).2.2) heap

/-- A cell that is set stays as it is over rounds of writing. -/
theorem writeRounds_keeps {record : Record} {cell : String} {value : Value} (target : Bean)
    (rounds : List (List InjectionPoint × Supply)) {heap : Heap}
    (isSet : (heap.read record).cells.find? cell = some value) :
    ((writeRounds target rounds heap).read record).cells.find? cell = some value := by
  induction rounds generalizing heap with
  | nil => exact isSet
  | cons round rounds ih => exact ih (write_keeps target round.1 round.2 isSet)

/-- Writing fields at different positions comes to a clean end, whatever is supplied and whatever
the cells of the target hold: all supplied values are written and taken, or those before the
first that cannot be written, which is taken and changes nothing, while those after it are left.
Over any rounds of writing to the target, a cell keeps the first value that it holds. -/
theorem write_ends_cleanly {points : List InjectionPoint}
    (distinct : points.Pairwise fun point other => point.index ≠ other.index) (target : Bean) :
    (∀ (supply : Supply) (heap : Heap), target.innermost.index < heap.contents.size →
      Ends target points supply heap (supply.write target points heap)) ∧
    ∀ (heap : Heap) (earlier later : List (List InjectionPoint × Supply)) (cell : String)
        (value : Value),
      ((writeRounds target earlier heap).read target.innermost).cells.find? cell = some value →
        ((writeRounds target (earlier ++ later) heap).read target.innermost).cells.find? cell =
          some value := by
  constructor
  · intro supply heap inside
    exact ends_write distinct target supply inside
  · intro heap earlier later cell value isSet
    rw [writeRounds, List.foldl_append]
    exact writeRounds_keeps target later isSet

/-- A shelf with a cell for its title and one for its mark. -/
def shelf : Record := ⟨0, ⟨"Shelf"⟩, "Shelf#1", {}⟩

/-- A text that is written to a cell of the shelf. -/
def shelfPoint (index : Nat) (name cell : String) : InjectionPoint :=
  ⟨index, name, .scalar .text, .property ⟨name, none⟩ (.scalar .text), some ⟨⟨"Shelf"⟩, cell⟩⟩

/-- The title, a caption that goes to the same cell, and the mark. -/
def shelfPoints : List InjectionPoint :=
  [shelfPoint 0 "title" "title", shelfPoint 1 "caption" "title", shelfPoint 3 "mark" "mark"]

/-- A text for each point, and one that no point takes. -/
def shelfSupply : Supply :=
  .ofList [(0, .ofText "first"), (1, .ofText "second"), (3, .ofText "third"), (7, .ofText "fourth")]

/-- The caption cannot be written over the title, which keeps its text in a second round too. -/
theorem shelf_ends_cleanly :
    Ends (.plain shelf) shelfPoints shelfSupply { contents := #[{}] }
        (shelfSupply.write (.plain shelf) shelfPoints { contents := #[{}] }) ∧
      (shelfSupply.write (.plain shelf) shelfPoints { contents := #[{}] }).1 =
        .error (.alreadyWired "caption") ∧
      (shelfSupply.write (.plain shelf) shelfPoints { contents := #[{}] }).2.1.keys = [3, 7] ∧
      ((writeRounds (.plain shelf) ([(shelfPoints, shelfSupply)] ++
          [(shelfPoints.drop 1, shelfSupply)]) { contents := #[{}] }).read shelf).cells.find?
        "title" = some (.ofText "first") := by
  have distinct : shelfPoints.Pairwise fun point other => point.index ≠ other.index := by decide
  have clean := write_ends_cleanly distinct (.plain shelf)
  refine ⟨clean.1 _ _ (by decide), rfl, rfl, ?_⟩
  exact clean.2 _ [(shelfPoints, shelfSupply)] [(shelfPoints.drop 1, shelfSupply)] "title" _ rfl

end Supply
end BeanContainer
