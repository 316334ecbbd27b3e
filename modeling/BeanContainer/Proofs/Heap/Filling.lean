import BeanContainer.Proofs.Heap.Cells
import BeanContainer.Proofs.Request.Answers

/-!
# What a finished bean holds

If all fields of a bean could be written, each cell holds what it held before and what was
found for the points on it, and nothing else.  Values travel in a supply under the positions
of their points, which a list of points has in ascending order.
-/

namespace BeanContainer

namespace Heap

variable {heap : Heap} {record : Record}

/-- A record keeps its cells unless they may have been filled. -/
theorem Extends.read_cells {fills : Nat → Prop} {adds : Event → Prop} {later : Heap}
    (extends_ : Extends fills adds heap later) (inside : record.index < heap.contents.size)
    (untouched : ¬ fills record.index) :
    (later.read record).cells = (heap.read record).cells := by
  obtain ⟨contents, found, _, cells⟩ :=
    extends_.records record.index _ (Array.getElem?_eq_getElem inside)
  simp only [read, found, Array.getElem?_eq_getElem inside, Option.getD_some]
  exact cells untouched

/-- A record keeps the arguments that it was made from. -/
theorem Extends.read_arguments {fills : Nat → Prop} {adds : Event → Prop} {later : Heap}
    (extends_ : Extends fills adds heap later) (inside : record.index < heap.contents.size) :
    (later.read record).arguments = (heap.read record).arguments := by
  obtain ⟨contents, found, arguments, _⟩ :=
    extends_.records record.index _ (Array.getElem?_eq_getElem inside)
  simp only [read, found, Array.getElem?_eq_getElem inside, Option.getD_some]
  exact arguments

/-- A new record holds its arguments and the cells that were filled when it was created. -/
theorem read_create {type : TypeName} {arguments : List Value} {cells : List (String × Value)}
    (created : (heap.create type arguments cells).1 = .plain record) :
    (heap.create type arguments cells).2.read record =
      { arguments, cells := Table.ofList cells } := by
  cases created
  simp [read, create, allocate, note]

end Heap

namespace Container

open Running

/-! ## Supplies and the points they are for -/

/-- What was found for points stands under no other positions. -/
theorem find?_supplyOf_of_ne {points : List InjectionPoint} {index : Nat}
    (differ : ∀ point ∈ points, index ≠ point.index) (founds : List (Option Value))
    (prior : Supply) : (supplyOf points founds prior).find? index = prior.find? index := by
  induction points generalizing founds prior with
  | nil => rfl
  | cons point points ih =>
      cases founds with
      | nil => rfl
      | cons found founds =>
          have later := ih (fun other member => differ other (List.mem_cons_of_mem _ member))
            founds (prior.offer point found)
          exact later.trans (prior.find?_offer_of_ne (differ point List.mem_cons_self) found)

/-- What was found for a point stands under its position. -/
theorem find?_supplyOf {points : List InjectionPoint} {findings : List Finding}
    (ascending : points.Pairwise fun point other => point.index < other.index) {prior : Supply}
    (absent : ∀ point ∈ points, prior.find? point.index = none)
    {pair : InjectionPoint × Finding} (member : pair ∈ points.zip findings) :
    (supplyOf points (findings.map (·.found)) prior).find? pair.1.index = pair.2.found := by
  induction points generalizing findings prior with
  | nil => simp at member
  | cons point points ih =>
      obtain ⟨before, ascendingLater⟩ := List.pairwise_cons.1 ascending
      cases findings with
      | nil => simp at member
      | cons finding findings =>
          rw [List.zip_cons_cons] at member
          rcases List.mem_cons.1 member with isFirst | isLater
          · subst isFirst
            have others : ∀ other ∈ points, point.index ≠ other.index :=
              fun other inLater => Nat.ne_of_lt (before other inLater)
            have offered := Supply.find?_offer_self (absent point List.mem_cons_self)
              finding.found
            exact (find?_supplyOf_of_ne others _ _).trans offered
          · refine ih ascendingLater ?_ isLater
            intro other inLater
            refine (Supply.find?_offer_of_ne _ (Nat.ne_of_gt (before other inLater)) _).trans ?_
            exact absent other (List.mem_cons_of_mem _ inLater)

/-- What is supplied for points is what was found for them. -/
theorem exists_supplied_iff {registry : Registry} {properties : PropertyStore}
    {points : List InjectionPoint} {findings : List Finding}
    (ascending : points.Pairwise fun point other => point.index < other.index)
    (resolves : Resolves registry properties points findings) (holds : InjectionPoint → Prop)
    (value : Value) :
    (∃ point ∈ points, holds point ∧
        (supplyOf points (findings.map (·.found)) .empty).find? point.index = some value) ↔
      ∃ pair ∈ points.zip findings, holds pair.1 ∧ pair.2.found = some value := by
  have supplied : ∀ pair ∈ points.zip findings,
      (supplyOf points (findings.map (·.found)) .empty).find? pair.1.index = pair.2.found :=
    fun pair member => find?_supplyOf ascending (fun _ _ => rfl) member
  have paired : List.Forall₂ (fun point finding => (point, finding) ∈ points.zip findings)
      points findings := List.forall₂_iff_zip.2 ⟨resolves.length_eq, id⟩
  constructor
  · rintro ⟨point, isPoint, isSo, found⟩
    obtain ⟨finding, _, isPair⟩ := exists_of_forall₂_left paired isPoint
    exact ⟨(point, finding), isPair, isSo, (supplied _ isPair).symm.trans found⟩
  · rintro ⟨⟨point, finding⟩, isPair, isSo, found⟩
    exact ⟨point, (List.of_mem_zip isPair).1, isSo, (supplied _ isPair).trans found⟩

/-! ## Finished beans -/

/-- If a bean could be finished, all its fields could be written. -/
theorem finish_eq_ok {chain : Chain} {definition : Definition} {name : String} {raw : Bean}
    {supply : Supply} {heap final : Heap}
    (ran : finish chain definition name raw supply heap = (.ok (), final)) :
    ∃ left written, supply.write raw definition.fields (heap.note (.resolved name raw)) =
      (.ok (), left, written) ∧ written.Continues final := by
  rw [finish_eq] at ran
  obtain ⟨_, noted, isNoted, ran⟩ := of_bind_apply_ok ran
  cases isNoted
  obtain ⟨_, halfway, wrote, ran⟩ := of_bind_apply_ok ran
  simp only [Supply.wire_apply] at wrote
  rcases outcome : supply.write raw definition.fields (heap.note (.resolved name raw)) with
    ⟨result, left, written⟩
  rw [outcome] at wrote
  cases wrote
  refine ⟨left, written, rfl, ?_⟩
  have rest : HeapM.Continues (do
      HeapM.note (.wired name raw)
      turns chain name definition.type raw) :=
    .bind (.note not_false) fun _ => turns_continues chain name definition.type raw
  have continues := rest written
  rw [ran] at continues
  exact continues

/-- The cells of a finished bean hold what they held before it was wired and what was supplied
for the points on them. -/
theorem finish_fills {chain : Chain} {definition : Definition} {name : String} {record : Record}
    {supply : Supply} {heap final : Heap}
    (ascending : definition.fields.Pairwise fun point other => point.index < other.index)
    (inside : record.index < heap.contents.size)
    (ran : finish chain definition name (.plain record) supply heap = (.ok (), final))
    (cell : String) (value : Value) :
    (final.read record).cells.find? cell = some value ↔
      (heap.read record).cells.find? cell = some value ∨
        ∃ point ∈ definition.fields, point.IsOn cell ∧ supply.find? point.index = some value := by
  obtain ⟨left, written, wrote, continues⟩ := finish_eq_ok ran
  have distinct : definition.fields.Pairwise fun point other => point.index ≠ other.index :=
    ascending.imp Nat.ne_of_lt
  have insideNoted : (Bean.plain record).innermost.index <
      (heap.note (.resolved name (.plain record))).contents.size := inside
  have writes := Supply.writes_of_write distinct insideNoted wrote
  have stillInside : record.index < written.contents.size := writes.inside insideNoted
  rw [continues.read_cells stillInside not_false]
  exact writes.cells cell value

end Container
end BeanContainer
