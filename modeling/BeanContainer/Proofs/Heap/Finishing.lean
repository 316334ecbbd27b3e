import BeanContainer.Proofs.Heap.Filling
import BeanContainer.Proofs.Heap.Turns

/-!
# When a bean can be finished

Writing the fields of a bean succeeds if they lie in unset cells of their own and the supplied
values have their types.  Without processors the bean is then finished, unless its callback fails,
which is that of a bean behind it if it has none of its own.
-/

namespace BeanContainer

/-- An unset cell can be filled. -/
theorem Heap.fill?_of_unset {heap : Heap} {record : Record} {cell : String}
    (unset : (heap.read record).cells.find? cell = none) (value : Value) :
    ∃ written, heap.fill? record cell value = some written := by
  have isUnset : (heap.read record).cell cell = .unset := congrArg WriteOnce.mk unset
  have isSet : ((heap.read record).cell cell).set value = .ok (.holding value) :=
    WriteOnce.set_eq_ok_iff.2 ⟨isUnset, rfl⟩
  refine ⟨heap.update record fun _ =>
    { heap.read record with cells := (heap.read record).cells.insert cell value }, ?_⟩
  rw [Heap.fill?, Contents.fill?, isSet]
  rfl

/-- A field of the bean whose cell is unset takes a value of its type. -/
theorem InjectionPoint.write_ok {point : InjectionPoint} {record : Record} {cell : Cell}
    {heap : Heap} (isOn : point.cell = some cell) (owner : cell.owner = record.type)
    (unset : (heap.read record).cells.find? cell.name = none) {value : Value}
    (typed : value.type = point.type) :
    ∃ written, point.write (.plain record) value heap = .ok written := by
  obtain ⟨written, filled⟩ := Heap.fill?_of_unset unset value
  refine ⟨written, ?_⟩
  simp [write, isOn, owner, typed, filled]

namespace Supply

variable {record : Record}

/-- Values of the right types can be written into unset cells of their own. -/
theorem write_ok {points : List InjectionPoint} {supply : Supply} {heap : Heap}
    (inside : record.index < heap.contents.size)
    (fits : ∀ point ∈ points, ∃ cell, point.cell = some cell ∧ cell.owner = record.type ∧
      (heap.read record).cells.find? cell.name = none)
    (apart : points.Pairwise fun point other => ∀ cell, point.IsOn cell → ¬ other.IsOn cell)
    (typed : ∀ point ∈ points, ∀ value, supply.find? point.index = some value →
      value.type = point.type) :
    ∃ left written, supply.write (.plain record) points heap = (.ok (), left, written) := by
  induction points generalizing supply heap with
  | nil => exact ⟨supply, heap, rfl⟩
  | cons point points ih =>
      obtain ⟨differs, apartLater⟩ := List.pairwise_cons.1 apart
      unfold write
      cases supplied : supply.find? point.index with
      | none =>
          exact ih inside (fun other member => fits other (List.mem_cons_of_mem _ member))
            apartLater fun other member => typed other (List.mem_cons_of_mem _ member)
      | some value =>
          obtain ⟨cell, isOn, owner, unset⟩ := fits point List.mem_cons_self
          obtain ⟨written, wrote⟩ := point.write_ok isOn owner unset
            (typed point List.mem_cons_self value supplied)
          simp only [wrote]
          obtain ⟨_, same, isRecord, isOnSame, filled⟩ := InjectionPoint.write_eq_ok wrote
          cases isRecord
          rw [isOn] at isOnSame
          cases isOnSame
          refine ih ?_ ?_ apartLater ?_
          · rw [(Heap.fill?_eq_some filled).2, Heap.update_size]
            exact inside
          · intro other member
            obtain ⟨otherCell, isOnOther, ownerOther, unsetOther⟩ :=
              fits other (List.mem_cons_of_mem _ member)
            refine ⟨otherCell, isOnOther, ownerOther, ?_⟩
            have apartNames : otherCell.name ≠ cell.name := by
              intro same
              refine differs other member cell.name ⟨cell.owner, isOn⟩ ⟨otherCell.owner, ?_⟩
              rw [isOnOther, ← same]
            rw [Heap.find?_of_fill? inside filled, if_neg apartNames]
            exact unsetOther
          · intro other member held found
            exact typed other (List.mem_cons_of_mem _ member) held
              (Table.find?_erase_eq_some_iff.1 found).2

/-- Writing fields changes no behaviour. -/
theorem write_behaviours (target : Bean) (points : List InjectionPoint) (supply : Supply)
    (heap : Heap) : (supply.write target points heap).2.2.behaviours = heap.behaviours := by
  induction points generalizing supply heap with
  | nil => rfl
  | cons point points ih =>
      unfold write
      split
      next => exact ih supply heap
      next value _ =>
        cases wrote : point.write target value heap with
        | error error => rfl
        | ok written =>
            obtain ⟨record, cell, _, _, filled⟩ := InjectionPoint.write_eq_ok wrote
            refine (ih _ written).trans ?_
            rw [(Heap.fill?_eq_some filled).2]
            rfl

end Supply

/-! ## Callbacks that do not fail -/

/-- No callback of the bean or of one that it wraps fails. -/
def Bean.Harmless (bean : Bean) : Prop :=
  ∀ link ∈ bean.chain, ∀ cause, link.capabilities.onWired ≠ some (.error cause)

/-- Records stand in for harmless beans. -/
def Heap.Harmless (heap : Heap) : Prop :=
  ∀ record inner, heap.wrapped? record = some inner → inner.Harmless

section Harmless

variable {heap : Heap} {bean : Bean}

/-- What is behind a harmless bean is harmless. -/
theorem Bean.Harmless.behind (harmless : bean.Harmless) (heapHarmless : heap.Harmless)
    {inner : Bean} (original : heap.original? bean = some inner) : inner.Harmless := by
  cases bean with
  | plain record => exact heapHarmless record inner original
  | proxy type capabilities wrapped =>
      cases original
      exact fun link member => harmless link (List.mem_cons_of_mem _ member)

/-- No callback that a search finds behind a harmless bean fails. -/
theorem Bean.Harmless.startsWell (harmless : bean.Harmless) (heapHarmless : heap.Harmless) :
    bean.StartsWell heap := by
  have succeeds : ∀ {bean : Bean} {found : Bean × CallbackResult}, bean.Harmless →
      heap.Finds (·.onWired) bean found → found.2 = .ok () := by
    intro bean found harmless finds
    induction finds with
    | @own bean result answers =>
        cases result with
        | ok done => rfl
        | error cause =>
            have isLink : bean ∈ bean.chain := List.mem_of_head? bean.head?_chain
            exact absurd answers (harmless bean isLink cause)
    | behind _ original _ ih => exact ih (harmless.behind heapHarmless original)
  intro link result found
  exact succeeds harmless (Heap.seek_eq_some_iff.1 found)

/-- The heap does not matter to a record that never stands in for a bean. -/
theorem Bean.Harmless.startsWell_plain {record : Record} (harmless : (plain record).Harmless)
    (heapHarmless : record.capabilities.original.isSome → heap.Harmless) :
    (plain record).StartsWell heap := by
  cases original : record.capabilities.original with
  | some cell => exact harmless.startsWell (heapHarmless (by simp [original]))
  | none =>
      intro link result found
      have nothing : heap.original? (.plain record) = none := by
        simp [Heap.original?, Heap.wrapped?, original]
      cases Heap.seek_eq_some_iff.1 found with
      | behind _ isInner _ =>
          rw [nothing] at isInner
          cases isInner
      | own answers =>
          cases result with
          | ok done => rfl
          | error cause => exact absurd answers (harmless _ (List.mem_singleton_self _) cause)

theorem Heap.Harmless.of_sameChains {other : Heap} (harmless : heap.Harmless)
    (same : heap.SameChains other) : other.Harmless := by
  intro record inner wrapped
  rw [same record] at wrapped
  exact harmless record inner wrapped

/-- A record stands in for the bean in a cell. -/
theorem Heap.wrapped?_eq_some_iff {record : Record} {inner : Bean} :
    heap.wrapped? record = some inner ↔ ∃ cell value, record.capabilities.original = some cell ∧
      (heap.read record).cells.find? cell = some value ∧ value.bean? = some inner := by
  simp [wrapped?, Option.bind_eq_some_iff]

/-- Written fields make no record stand in for a bean that is not harmless. -/
theorem Heap.Writes.harmless {record : Record} {points : List InjectionPoint} {supply : Supply}
    {written : Heap} (writes : Heap.Writes (.plain record) points supply heap written)
    (harmless : heap.Harmless)
    (supplied : ∀ point ∈ points, ∀ value inner, supply.find? point.index = some value →
      value.bean? = some inner → inner.Harmless) : written.Harmless := by
  intro other inner wrapped
  obtain ⟨cell, value, original, found, isBean⟩ := Heap.wrapped?_eq_some_iff.1 wrapped
  have before : (heap.read other).cells.find? cell = some value → inner.Harmless :=
    fun found => harmless other inner
      (Heap.wrapped?_eq_some_iff.2 ⟨cell, value, original, found, isBean⟩)
  by_cases same : record.index = other.index
  · have isRead : ∀ either : Heap, either.read other = either.read record := by
      intro either
      rw [Heap.read, Heap.read, same]
    rw [isRead] at found before
    rcases (writes.cells cell value).1 found with early | ⟨point, isPoint, _, isSupplied⟩
    · exact before early
    · exact supplied point isPoint value inner isSupplied isBean
  · rw [writes.rest] at found
    refine before ?_
    rwa [Bean.innermost, Heap.read_update_of_ne same] at found

/-- A new record stands in for nothing but what it was created with. -/
theorem Heap.Harmless.create (harmless : heap.Harmless) (type : TypeName)
    (arguments : List Value) {cells : List (String × Value)}
    (presets : ∀ cell value inner, (Table.ofList cells).find? cell = some value →
      value.bean? = some inner → inner.Harmless) :
    (heap.create type arguments cells).2.Harmless := by
  intro record inner wrapped
  obtain ⟨cell, value, original, found, isBean⟩ := Heap.wrapped?_eq_some_iff.1 wrapped
  have contents : (heap.create type arguments cells).2.contents =
      heap.contents.push { arguments, cells := Table.ofList cells } := rfl
  rw [Heap.read, contents, Array.getElem?_push] at found
  split at found
  next => exact presets cell value inner found isBean
  next =>
    exact harmless record inner
      (Heap.wrapped?_eq_some_iff.2 ⟨cell, value, original, found, isBean⟩)

end Harmless

open Running

/-! ## Chains without processors -/

namespace Bean

theorem tellName_behaviours (bean : Bean) (name : String) (heap : Heap) :
    ((bean.tellName name heap).getD heap).behaviours = heap.behaviours := by
  cases told : bean.tellName name heap with
  | none => rfl
  | some later =>
      obtain ⟨⟨link, _⟩, _, rfl⟩ := Option.map_eq_some_iff.1 told
      cases link with
      | plain record => rfl
      | proxy type capabilities inner => rfl

theorem giveContainer_behaviours (bean : Bean) (container : String) (heap : Heap) :
    ((bean.giveContainer container heap).getD heap).behaviours = heap.behaviours := by
  cases told : bean.giveContainer container heap with
  | none => rfl
  | some later =>
      obtain ⟨⟨link, _⟩, _, rfl⟩ := Option.map_eq_some_iff.1 told
      cases link with
      | plain record => rfl
      | proxy type capabilities inner => rfl

end Bean

/-- The built-in processor leaves each bean as it is. -/
theorem Link.apply_awareness (container : String) (pass : Pass) (name : String) (bean : Bean)
    (heap : Heap) : ∃ told, (Link.awareness container).apply pass name bean heap =
      (.ok bean, told) ∧ told.behaviours = heap.behaviours := by
  cases pass with
  | after => exact ⟨heap, rfl, rfl⟩
  | before =>
      exact ⟨_, rfl,
        (bean.giveContainer_behaviours container _).trans (bean.tellName_behaviours name heap)⟩

namespace Chain

variable {chain : Chain} (unprocessed : chain.links.filterMap Link.processor? = [])
include unprocessed

/-- Without processors a bean comes out of each pass as it was. -/
theorem pass_of_unprocessed (pass : Pass) (name : String) (bean : Bean) (heap : Heap) :
    ∃ later, chain.pass pass name bean heap = (.ok bean, later) ∧
      later.behaviours = heap.behaviours ∧ heap.SameChains later := by
  have chains := (chain.pass_tells heap pass name bean heap (.refl heap)).1
  suffices passed : ∃ later, chain.pass pass name bean heap = (.ok bean, later) ∧
      later.behaviours = heap.behaviours by
    obtain ⟨later, isLater, same⟩ := passed
    rw [isLater] at chains
    exact ⟨later, isLater, same, chains⟩
  clear chains
  unfold Chain.pass
  generalize chain.links = links at unprocessed
  induction links generalizing heap with
  | nil => exact ⟨heap, rfl, rfl⟩
  | cons link links ih =>
      cases link with
      | shared processor => cases unprocessed
      | owned processor => cases unprocessed
      | awareness container =>
          obtain ⟨told, isTold, same⟩ := Link.apply_awareness container pass name bean heap
          obtain ⟨later, isLater, sameLater⟩ := ih told unprocessed
          refine ⟨later, ?_, sameLater.trans same⟩
          rw [passLinks, bind_apply, tryCatch_apply, isTold]
          exact isLater

theorem inspect_of_unprocessed (name : String) (type : TypeName) (heap : Heap) :
    chain.inspect name type heap = (.ok (), heap) := by
  unfold inspect
  rw [unprocessed]
  rfl

end Chain

namespace Container

/-- The callback of a bean succeeds if it is not one that fails. -/
theorem start_ok {bean : Bean} {heap : Heap} (starts : bean.StartsWell heap) (name : String) :
    ∃ later, start name bean heap = (.ok (), later) ∧ later.behaviours = heap.behaviours ∧
      heap.SameChains later := by
  unfold start
  rw [bind_apply_ok (get_apply heap)]
  unfold Bean.start
  cases found : heap.seek bean (·.onWired) with
  | none => exact ⟨heap, rfl, rfl, .refl heap⟩
  | some answer =>
      obtain ⟨link, result⟩ := answer
      cases starts link result found
      exact ⟨heap.note (.started link), rfl, rfl, .note heap _⟩

/-- Without processors a bean can be finished if its fields can be written and its callback does
not fail then.  Records stand in for the same beans after that. -/
theorem finish_ok {chain : Chain} (unprocessed : chain.links.filterMap Link.processor? = [])
    {definition : Definition} {name : String} {record : Record} {supply left : Supply}
    {heap written : Heap}
    (wrote : supply.write (.plain record) definition.fields
      (heap.note (.resolved name (.plain record))) = (.ok (), left, written))
    (starts : (Bean.plain record).StartsWell written) :
    ∃ final, finish chain definition name (.plain record) supply heap = (.ok (), final) ∧
      final.behaviours = heap.behaviours ∧ written.SameChains final := by
  have wired : supply.wire (.plain record) definition.fields
      (heap.note (.resolved name (.plain record))) = (.ok (), written) := by
    rw [Supply.wire_apply, wrote]
  have same : written.behaviours = heap.behaviours := by
    have kept := supply.write_behaviours (.plain record) definition.fields
      (heap.note (.resolved name (.plain record)))
    rw [wrote] at kept
    exact kept
  have noted : ∀ (event : Event) (heap : Heap), HeapM.note event heap = (.ok (), heap.note event) :=
    fun _ _ => rfl
  have shown : written.SameChains (written.note (.wired name (.plain record))) := .note written _
  obtain ⟨before, isBefore, sameBefore, chains⟩ := Chain.pass_of_unprocessed unprocessed .before
    name (.plain record) (written.note (.wired name (.plain record)))
  obtain ⟨started, isStarted, sameStarted, chainsStarted⟩ :=
    start_ok (starts.of_sameChains (shown.trans chains)) name
  obtain ⟨after, isAfter, sameAfter, chainsAfter⟩ := Chain.pass_of_unprocessed unprocessed .after
    name (.plain record) started
  refine ⟨after, ?_, sameAfter.trans (sameStarted.trans (sameBefore.trans same)),
    ((shown.trans chains).trans chainsStarted).trans chainsAfter⟩
  unfold finish
  rw [bind_apply_ok (noted _ _), bind_apply_ok wired, bind_apply_ok (noted _ _),
    bind_apply_ok (Chain.inspect_of_unprocessed unprocessed _ _ _), bind_apply_ok isBefore,
    bind_apply_ok isStarted, bind_apply_ok isAfter]
  rfl

end Container
end BeanContainer
