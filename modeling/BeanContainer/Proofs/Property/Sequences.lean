import BeanContainer.Proofs.Property.Keys
import Mathlib.Data.List.Forall2
import Mathlib.Data.List.Nodup

/-!
# Sequences by index

A store keeps its entries in the order of their keys, where `key[10]` stands before
`key[2]`.  A sequence is read from the entries `key[i]` in the order of the numbers `i`
nevertheless: whatever numbered values the entries hold, in whatever order, the sequence
lists the values by ascending number.
-/

namespace BeanContainer

/-- Reading every member of a list succeeds if reading each one does. -/
theorem mapM_eq_ok {ε α β : Type} {read : α → Except ε β} {result : α → β} {list : List α}
    (reads : ∀ member ∈ list, read member = .ok (result member)) :
    list.mapM read = .ok (list.map result) := by
  induction list with
  | nil => rfl
  | cons head list ih =>
      obtain ⟨first, others⟩ := List.forall_mem_cons.1 reads
      rw [List.mapM_cons, first, ih others]
      rfl

/-- Reading the members of a list succeeds exactly if reading each one does, with the results
in the order of the members. -/
theorem mapM_eq_ok_iff {ε α β : Type} {read : α → Except ε β} {list : List α} {results : List β} :
    list.mapM read = .ok results ↔
      List.Forall₂ (fun member result => read member = .ok result) list results := by
  induction list generalizing results with
  | nil =>
      rw [List.mapM_nil, List.forall₂_nil_left_iff]
      exact ⟨fun equal => (Except.ok.inj equal).symm, fun equal => congrArg Except.ok equal.symm⟩
  | cons head list ih =>
      rw [List.mapM_cons, List.forall₂_cons_left_iff]
      constructor
      · intro gathered
        cases isFirst : read head with
        | error error => rw [isFirst] at gathered; cases gathered
        | ok first =>
            cases areOthers : list.mapM read with
            | error error => rw [isFirst, areOthers] at gathered; cases gathered
            | ok others =>
                rw [isFirst, areOthers] at gathered
                cases gathered
                exact ⟨first, others, rfl, ih.1 areOthers, rfl⟩
      · rintro ⟨first, others, isFirst, areOthers, rfl⟩
        rw [isFirst, ih.2 areOthers]
        rfl

/-- Reading the members of a list fails exactly if reading one of them does, and then with the
error of the first one that fails. -/
theorem mapM_eq_error_iff {ε α β : Type} {read : α → Except ε β} {list : List α} {error : ε} :
    list.mapM read = .error error ↔
      ∃ before member after, list = before ++ member :: after ∧
        (∀ earlier ∈ before, ∃ result, read earlier = .ok result) ∧
        read member = .error error := by
  induction list with
  | nil => simp [pure, Except.pure]
  | cons head list ih =>
      rw [List.mapM_cons]
      constructor
      · intro failed
        cases isFirst : read head with
        | error other =>
            rw [isFirst] at failed
            cases failed
            exact ⟨[], head, list, rfl, by simp, isFirst⟩
        | ok first =>
            cases areOthers : list.mapM read with
            | ok others => rw [isFirst, areOthers] at failed; cases failed
            | error other =>
                rw [isFirst, areOthers] at failed
                cases failed
                obtain ⟨before, member, after, rfl, earlier, fails⟩ := ih.1 areOthers
                have read_earlier := List.forall_mem_cons.2 ⟨⟨first, isFirst⟩, earlier⟩
                exact ⟨head :: before, member, after, rfl, read_earlier, fails⟩
      · rintro ⟨before, member, after, shape, earlier, fails⟩
        cases before with
        | nil =>
            obtain ⟨rfl, rfl⟩ := List.cons.inj shape
            rw [fails]
            rfl
        | cons first before =>
            obtain ⟨rfl, rfl⟩ := List.cons.inj shape
            obtain ⟨⟨result, isFirst⟩, others⟩ := List.forall_mem_cons.1 earlier
            rw [isFirst, ih.2 ⟨before, member, after, rfl, others, fails⟩]
            rfl

/-- Sorting by a number makes the numbers ascend. -/
theorem pairwise_mergeSort_le {α : Type} (number : α → Int) (list : List α) :
    (list.mergeSort fun one other => number one ≤ number other).Pairwise
      fun one other => number one ≤ number other := by
  have sorted : (list.mergeSort fun one other => number one ≤ number other).Pairwise
      fun one other => decide (number one ≤ number other) = true := by
    apply List.pairwise_mergeSort
    · intro one middle other
      simpa using Int.le_trans
    · intro one other
      simpa using Int.le_total (number one) (number other)
  simpa using sorted

/-- Sorting gives back a list that ascends strictly, whatever order it was brought into. -/
theorem mergeSort_eq_of_perm {α : Type} {number : α → Int} {list sorted : List α}
    (ascending : sorted.Pairwise fun one other => number one < number other)
    (same : list.Perm sorted) :
    (list.mergeSort fun one other => number one ≤ number other) = sorted := by
  have reordered := (list.mergeSort_perm fun one other => number one ≤ number other).trans same
  have apart : (sorted.map number).Nodup := List.pairwise_map.2 (ascending.imp Int.ne_of_lt)
  have distinct := List.pairwise_map.1 ((reordered.map number).nodup_iff.2 apart)
  refine reordered.eq_of_pairwise ?_ ((pairwise_mergeSort_le number list).and distinct)
    (ascending.imp fun less => ?_)
  · intro one other _ _ less more
    exact absurd (Int.le_antisymm less.1 more.1) less.2
  · exact ⟨Int.le_of_lt less, Int.ne_of_lt less⟩

namespace PropertyStore

/-- Different entries of a table are found under different indices. -/
theorem indexed_nodup (key : String) (values : Table String String) :
    (indexed key values.entries).Nodup := by
  refine List.Nodup.filterMap ?_ (values.ascending.imp ?_)
  · rintro ⟨one, value⟩ ⟨other, otherValue⟩ ⟨index, found⟩ isOne isOther
    simp only [Option.mem_def, Option.map_eq_some_iff, Prod.mk.injEq] at isOne isOther
    obtain ⟨_, atOne, rfl, rfl⟩ := isOne
    obtain ⟨_, atOther, rfl, rfl⟩ := isOther
    have same := (PropertyKey.index?_eq_some_iff.1 atOne).1.trans
      (PropertyKey.index?_eq_some_iff.1 atOther).1.symm
    rw [String.toList_inj.1 same]
  · intro one other less same
    exact Key.ne_of_lt less (congrArg Prod.fst same)

theorem mem_indexed_iff {key index value : String} {entries : List (String × String)} :
    (index, value) ∈ indexed key entries ↔
      ∃ other, (other, value) ∈ entries ∧ PropertyKey.index? key other = some index := by
  simp only [indexed, List.mem_filterMap, Option.map_eq_some_iff, Prod.mk.injEq, Prod.exists]
  constructor
  · rintro ⟨other, _, member, _, found, rfl, rfl⟩
    exact ⟨other, member, found⟩
  · rintro ⟨other, member, found⟩
    exact ⟨other, value, member, index, found, rfl, rfl⟩

/-- An entry that is written with a number is read with the number. -/
theorem readIndex_toString (key value : String) {number : Nat} (small : number < 1 <<< 63) :
    readIndex key (toString number, value) = .ok ((number : Int), value) := by
  have inside : IntegerType.i64.lowest ≤ number ∧ (number : Int) ≤ IntegerType.i64.highest := by
    constructor
    · exact Int.le_trans (by decide) (Int.natCast_nonneg number)
    · have highest : IntegerType.i64.highest = (1 <<< 63 : Nat) - 1 := rfl
      omega
  simp only [readIndex, IntegerType.read?_toString, IntegerType.ofInt?, dif_pos inside]

/-- The values of numbered entries are listed by ascending number. -/
theorem elements_eq {key : String} {entries : List (String × String)}
    {numbered : List (Nat × String)}
    (ascending : numbered.Pairwise fun one other => one.1 < other.1)
    (small : ∀ entry ∈ numbered, entry.1 < 1 <<< 63)
    (same : (indexed key entries).Perm (numbered.map fun entry => (toString entry.1, entry.2))) :
    elements key entries = .ok (numbered.map (·.2)) := by
  have reads : ∀ entry ∈ indexed key entries,
      readIndex key entry = .ok ((Digits.value entry.1.toList : Int), entry.2) := by
    intro entry member
    obtain ⟨⟨number, value⟩, isNumbered, rfl⟩ := List.mem_map.1 (same.mem_iff.1 member)
    rw [readIndex_toString key value (small _ isNumbered), Digits.value_toString]
  have reordered := same.map fun entry => ((Digits.value entry.1.toList : Int), entry.2)
  simp only [List.map_map, Function.comp_def, Digits.value_toString] at reordered
  have increasing : (numbered.map fun entry => ((entry.1 : Int), entry.2)).Pairwise
      fun one other => one.1 < other.1 :=
    List.pairwise_map.2 (ascending.imp Int.ofNat_lt.2)
  unfold elements
  rw [mapM_eq_ok reads]
  change Except.ok _ = _
  rw [mergeSort_eq_of_perm increasing reordered, List.map_map]
  rfl

end PropertyStore
end BeanContainer
