import BeanContainer.Proofs.Heap.Extension
import BeanContainer.Proofs.Places

/-!
# What finishing a bean writes

Only the cells of the bean itself are filled, each with a value that was resolved for
one of the fields on the cell.  This holds however far finishing the bean came.
-/

namespace BeanContainer

/-- The record of the bean lies at the index. -/
def Bean.IsAt (bean : Bean) (index : Nat) : Prop :=
  ∃ record, bean = .plain record ∧ record.index = index

namespace Heap

/-- The heap was extended while fields of the bean were written from the supply. -/
structure Wires (target : Bean) (points : List InjectionPoint) (supply : Supply)
    (before after : Heap) : Prop where
  grows : Extends target.IsAt (fun event => ¬ event.IsOfRequest) before after
  cells : ∀ (index : Nat) (contents later : Contents), before.contents[index]? = some contents →
    after.contents[index]? = some later → ∀ (cell : String) (value : Value),
      later.cells.find? cell = some value → contents.cells.find? cell = some value ∨
        ∃ point ∈ points, point.IsOn cell ∧ supply.find? point.index = some value

namespace Wires

variable {target : Bean} {points : List InjectionPoint} {supply : Supply}
  {first second third : Heap}

theorem of_continues (continues : first.Continues second) :
    Wires target points supply first second where
  grows := continues.mono (fun _ impossible => impossible.elim) fun _ => id
  cells index contents later found foundLater cell value filled := by
    obtain ⟨same, foundSame, _, cells⟩ := continues.records index contents found
    rw [foundLater] at foundSame
    cases foundSame
    rw [cells not_false] at filled
    exact .inl filled

theorem refl (heap : Heap) : Wires target points supply heap heap := of_continues (.refl heap)

theorem trans (one : Wires target points supply first second)
    (two : Wires target points supply second third) :
    Wires target points supply first third where
  grows := one.grows.trans two.grows
  cells index contents later found foundLater cell value filled := by
    obtain ⟨middle, foundMiddle, _⟩ := one.grows.records index contents found
    rcases two.cells index middle later foundMiddle foundLater cell value filled with
      before | written
    · exact one.cells index contents middle found foundMiddle cell value before
    · exact .inr written

theorem mono {others : List InjectionPoint} {larger : Supply}
    (pointsSubset : ∀ point ∈ points, point ∈ others)
    (supplySubset : ∀ index value, supply.find? index = some value →
      larger.find? index = some value)
    (wires : Wires target points supply first second) :
    Wires target others larger first second where
  grows := wires.grows
  cells index contents later found foundLater cell value filled := by
    rcases wires.cells index contents later found foundLater cell value filled with
      before | ⟨point, member, isOn, supplied⟩
    · exact .inl before
    · exact .inr ⟨point, pointsSubset point member, isOn, supplySubset _ _ supplied⟩

end Wires

/-- A cell that could be filled was unset, and nothing else of the record changes. -/
theorem fill?_eq_some {heap written : Heap} {record : Record} {cell : String} {value : Value}
    (filled : heap.fill? record cell value = some written) :
    (heap.read record).cells.find? cell = none ∧
      written = heap.update record fun _ =>
        { heap.read record with cells := (heap.read record).cells.insert cell value } := by
  unfold fill? at filled
  obtain ⟨contents, fills, rfl⟩ := Option.map_eq_some_iff.1 filled
  unfold Contents.fill? at fills
  split at fills
  next cellWritten isWritten =>
    cases fills
    have unset := (WriteOnce.set_eq_ok_iff.1 isWritten).1
    exact ⟨congrArg WriteOnce.content unset, rfl⟩
  next => cases fills

end Heap

/-- Filling the cell of a field with the value that was resolved for it. -/
theorem Heap.Wires.fill {heap : Heap} {record : Record} {point : InjectionPoint} {cell : Cell}
    {value : Value} {supply : Supply} (isOn : point.cell = some cell)
    (supplied : supply.find? point.index = some value) :
    Heap.Wires (.plain record) [point] supply heap (heap.update record fun _ =>
      { heap.read record with
        cells := (heap.read record).cells.insert cell.name value }) where
  grows := {
    records := by
      intro index contents found
      by_cases same : record.index = index
      · subst same
        have isRead : heap.read record = contents := by simp [Heap.read, found]
        refine ⟨{ contents with cells := contents.cells.insert cell.name value }, ?_, rfl, ?_⟩
        · simp [Heap.update, Array.getElem?_modify, found, isRead]
        · intro untouched
          exact absurd ⟨record, rfl, rfl⟩ untouched
      · refine ⟨contents, ?_, rfl, fun _ => rfl⟩
        simp [Heap.update, Array.getElem?_modify, same, found]
    journal := ⟨[], by simp [Heap.update], by simp⟩ }
  cells index contents later found foundLater name held filled := by
    by_cases same : record.index = index
    · subst same
      have isRead : heap.read record = contents := by simp [Heap.read, found]
      simp only [Heap.update, Array.getElem?_modify, found, isRead, if_true, Option.map_some,
        Option.some.injEq] at foundLater
      subst foundLater
      rcases Table.find?_insert_eq_some_iff.1 filled with ⟨isCell, isNew⟩ | ⟨_, before⟩
      · subst isCell isNew
        exact .inr ⟨point, by simp, ⟨cell.owner, isOn⟩, supplied⟩
      · exact .inl before
    · simp only [Heap.update, Array.getElem?_modify, same, if_false, found,
        Option.some.injEq] at foundLater
      subst foundLater
      exact .inl filled

/-- A field that could be written lies in an unset cell of the target, which takes the
value. -/
theorem InjectionPoint.write_eq_ok {point : InjectionPoint} {target : Bean} {value : Value}
    {heap written : Heap} (done : point.write target value heap = .ok written) :
    ∃ record cell, target = .plain record ∧ point.cell = some cell ∧
      heap.fill? record cell.name value = some written := by
  unfold InjectionPoint.write at done
  split at done
  · cases done
  next cell isOn =>
    split at done
    · cases done
    next record =>
      split at done
      · cases done
      · split at done
        · cases done
        · split at done
          next filledHeap filled =>
            cases done
            exact ⟨record, cell, rfl, isOn, filled⟩
          next => cases done

theorem InjectionPoint.write_wires {point : InjectionPoint} {target : Bean} {value : Value}
    {heap written : Heap} (done : point.write target value heap = .ok written) {supply : Supply}
    (supplied : supply.find? point.index = some value) :
    Heap.Wires target [point] supply heap written := by
  obtain ⟨record, cell, rfl, isOn, filled⟩ := write_eq_ok done
  rw [(Heap.fill?_eq_some filled).2]
  exact .fill isOn supplied

/-- Values are written in the order of the points, up to the first that cannot be. -/
theorem Supply.write_wires (target : Bean) (points : List InjectionPoint) (supply : Supply)
    (heap : Heap) : Heap.Wires target points supply heap (supply.write target points heap).2.2 := by
  induction points generalizing supply heap with
  | nil => exact .refl heap
  | cons point points ih =>
      unfold Supply.write
      cases supplied : supply.find? point.index with
      | none =>
          refine .mono ?_ (fun _ _ => id) (ih supply heap)
          intro other member
          exact List.mem_cons_of_mem _ member
      | some value =>
          cases done : point.write target value heap with
          | error error => simpa [done] using Heap.Wires.refl heap
          | ok written =>
              have first : Heap.Wires target (point :: points) supply heap written :=
                (point.write_wires done supplied).mono (by simp) fun _ _ => id
              have rest := ih (supply.erase point.index) written
              have wider : Heap.Wires target (point :: points) supply written
                  (Supply.write target points (supply.erase point.index) written).2.2 :=
                rest.mono (fun _ member => List.mem_cons_of_mem _ member) fun _ _ left =>
                  (Table.find?_erase_eq_some_iff.1 left).2
              simpa [done] using first.trans wider

open Running

/-- Values are written, and what is left of them is dropped. -/
theorem Supply.wire_apply (supply : Supply) (target : Bean) (points : List InjectionPoint)
    (heap : Heap) : supply.wire target points heap =
      ((supply.write target points heap).1, (supply.write target points heap).2.2) := rfl

namespace Container

/-- Finishing a bean fills cells of this bean only, each from the supply. -/
theorem finish_wires (chain : Chain) (definition : Definition) (name : String) (raw : Bean)
    (supply : Supply) :
    Moves (Heap.Wires raw definition.fields supply) (finish chain definition name raw supply) := by
  have quiet : ∀ {α : Type} {action : HeapM α}, action.Continues →
      Moves (Heap.Wires raw definition.fields supply) action :=
    fun continues heap => .of_continues (continues heap)
  rw [finish_eq]
  refine .bind .trans (quiet (.note not_false)) fun _ => ?_
  refine .bind .trans ?_ fun _ => ?_
  · intro heap
    exact Supply.write_wires raw definition.fields supply heap
  refine .bind .trans (quiet (.note not_false)) fun _ => ?_
  exact quiet (turns_continues chain name definition.type raw)

end Container
end BeanContainer
