import BeanContainer.Proofs.Heap.Chains

/-!
# Lists in the order of priority

Beans with a priority stand first, the higher the priority the earlier, and beans of one
rank stay in the order in which they were listed.  A proxy without a priority ranks as what it
wraps.  Only one order of a list is of this kind, and sorting gives it.
-/

namespace BeanContainer

/-! ## Ranks -/

namespace Bean

/-- The bean has the priority itself, or it has none and the bean that it wraps has this one. -/
inductive HasPriority : Bean → Int → Prop
  | own {bean : Bean} {priority : Int} (has : bean.capabilities.priority = some priority) :
      HasPriority bean priority
  | wrapped {type : TypeName} {capabilities : Capabilities} {inner : Bean} {priority : Int}
      (hasNone : capabilities.priority = none) (has : inner.HasPriority priority) :
      HasPriority (.proxy type capabilities inner) priority

theorem priority_plain (record : Record) :
    (plain record).priority = record.capabilities.priority := by
  cases has : record.capabilities.priority <;> simp [priority, seek, chain, Bean.capabilities, has]

theorem priority_proxy (type : TypeName) (capabilities : Capabilities) (inner : Bean) :
    (proxy type capabilities inner).priority = capabilities.priority.or inner.priority := by
  cases has : capabilities.priority <;> simp [priority, seek, chain, Bean.capabilities, has]

/-- The search along the chain stops at the outermost priority. -/
theorem priority_eq_some_iff {bean : Bean} {priority : Int} :
    bean.priority = some priority ↔ bean.HasPriority priority := by
  induction bean with
  | plain record =>
      rw [priority_plain]
      constructor
      · intro has
        exact .own has
      · intro has
        cases has with
        | own has => exact has
  | proxy type capabilities inner ih =>
      rw [priority_proxy, Option.or_eq_some_iff, ih]
      constructor
      · rintro (has | ⟨hasNone, has⟩)
        · exact .own has
        · exact .wrapped hasNone has
      · intro has
        cases has with
        | own has => exact .inl has
        | wrapped hasNone has => exact .inr ⟨hasNone, has⟩

/-- The first bean has a priority, and the second one has a lower one or none. -/
def Outranks (one other : Bean) : Prop :=
  ∃ priority, one.priority = some priority ∧
    ∀ lower, other.priority = some lower → lower < priority

/-- A bean may stand before all those that do not outrank it. -/
theorem comesBefore_iff {one other : Bean} :
    one.comesBefore other = true ↔ ¬ other.Outranks one := by
  unfold comesBefore Outranks
  cases one.priority with
  | none => cases other.priority <;> simp
  | some higher => cases other.priority <;> simp

theorem comesBefore_trans {one middle other : Bean} (first : one.comesBefore middle = true)
    (second : middle.comesBefore other = true) : one.comesBefore other = true := by
  unfold comesBefore at *
  cases isOne : one.priority with
  | none =>
      cases isMiddle : middle.priority with
      | none => simpa [isMiddle] using second
      | some priority => simp [isOne, isMiddle] at first
  | some priority =>
      cases isMiddle : middle.priority with
      | none =>
          cases isOther : other.priority with
          | none => rfl
          | some lower => simp [isMiddle, isOther] at second
      | some between =>
          cases isOther : other.priority with
          | none => rfl
          | some lower =>
              simp only [isOne, isMiddle, isOther, decide_eq_true_eq] at first second ⊢
              exact Int.le_trans second first

theorem comesBefore_total (one other : Bean) :
    (one.comesBefore other || other.comesBefore one) = true := by
  unfold comesBefore
  cases one.priority with
  | none => cases other.priority <;> rfl
  | some priority =>
      cases other.priority with
      | none => rfl
      | some lower => simpa using Int.le_total lower priority

/-- Either of two beans of one rank may stand before the other. -/
theorem comesBefore_of_priority_eq {one other : Bean} (same : one.priority = other.priority) :
    one.comesBefore other = true := by
  unfold comesBefore
  rw [same]
  cases other.priority with
  | none => rfl
  | some priority => simp

/-- Two beans of which neither outranks the other are of one rank. -/
theorem priority_eq_of_not_outranks {one other : Bean} (notAbove : ¬ one.Outranks other)
    (notBelow : ¬ other.Outranks one) : one.priority = other.priority := by
  rw [← comesBefore_iff] at notAbove notBelow
  unfold comesBefore at notAbove notBelow
  cases isOne : one.priority with
  | none =>
      cases isOther : other.priority with
      | none => rfl
      | some priority => simp [isOne, isOther] at notBelow
  | some priority =>
      cases isOther : other.priority with
      | none => simp [isOne, isOther] at notAbove
      | some lower =>
          simp only [isOne, isOther, decide_eq_true_eq] at notAbove notBelow
          rw [Int.le_antisymm notAbove notBelow]

end Bean

/-! ## Sorting -/

/-- Members that may stand in any order are not moved when a list is sorted. -/
theorem filter_mergeSort {α : Type} {before : α → α → Bool} {keep : α → Bool}
    (trans : ∀ one middle other, before one middle = true → before middle other = true →
      before one other = true)
    (total : ∀ one other, (before one other || before other one) = true)
    (tied : ∀ one other, keep one = true → keep other = true → before one other = true)
    (list : List α) : (list.mergeSort before).filter keep = list.filter keep := by
  have sorted : (list.filter keep).Pairwise fun one other => before one other = true := by
    apply List.pairwise_of_forall_mem_list
    intro one isOne other isOther
    exact tied one other (List.mem_filter.1 isOne).2 (List.mem_filter.1 isOther).2
  have inside : (list.filter keep).Sublist ((list.mergeSort before).filter keep) := by
    have kept := (List.sublist_mergeSort trans total sorted List.filter_sublist).filter keep
    simpa using kept
  have sameLength := ((List.mergeSort_perm list before).filter keep).length_eq
  exact (inside.eq_of_length sameLength.symm).symm

/-- The order lists the items by the priority of their beans: no item stands behind one of a
lower rank, and items of one rank stand as they do in the list. -/
structure Ranked {α : Type} (bean : α → Bean) (list order : List α) : Prop where
  perm : order.Perm list
  descending : order.Pairwise fun one other => ¬ (bean other).Outranks (bean one)
  stable : ∀ rank, (order.filter fun item => (bean item).priority = rank) =
    list.filter fun item => (bean item).priority = rank

/-- Sorting by priority gives the order of the priorities. -/
theorem ranked_mergeSort {α : Type} (bean : α → Bean) (list : List α) :
    Ranked bean list (list.mergeSort fun one other => (bean one).comesBefore (bean other)) := by
  have trans : ∀ one middle other, (bean one).comesBefore (bean middle) = true →
      (bean middle).comesBefore (bean other) = true →
        (bean one).comesBefore (bean other) = true :=
    fun _ _ _ => Bean.comesBefore_trans
  have total : ∀ one other,
      ((bean one).comesBefore (bean other) || (bean other).comesBefore (bean one)) = true :=
    fun _ _ => Bean.comesBefore_total _ _
  constructor
  case perm => exact List.mergeSort_perm list _
  case descending =>
    exact (List.pairwise_mergeSort trans total list).imp Bean.comesBefore_iff.1
  case stable =>
    intro rank
    apply filter_mergeSort trans total
    intro one other isOne isOther
    rw [decide_eq_true_eq] at isOne isOther
    exact Bean.comesBefore_of_priority_eq (isOne.trans isOther.symm)

/-! ## The only order -/

section Unique

variable {α : Type} {bean : α → Bean} {list one other : List α}

/-- Lists that agree on the items of each rank have the same items. -/
theorem mem_iff_of_filter_eq
    (same : ∀ rank, (one.filter fun item => (bean item).priority = rank) =
      other.filter fun item => (bean item).priority = rank) {item : α} :
    item ∈ one ↔ item ∈ other := by
  have kept : item ∈ (one.filter fun found => (bean found).priority = (bean item).priority) ↔
      item ∈ other.filter fun found => (bean found).priority = (bean item).priority := by
    rw [same]
  simpa [List.mem_filter] using kept

/-- In a list without an item behind one of a lower rank, none outranks the first. -/
theorem not_outranks_head {head : α}
    (descending : (head :: list).Pairwise fun one other => ¬ (bean other).Outranks (bean one))
    {item : α} (member : item ∈ head :: list) : ¬ (bean item).Outranks (bean head) := by
  rcases List.mem_cons.1 member with rfl | behind
  · rw [← Bean.comesBefore_iff]
    exact Bean.comesBefore_of_priority_eq rfl
  · exact List.rel_of_pairwise_cons descending behind

/-- A list without an item behind one of a lower rank is determined by its parts of one
rank. -/
theorem eq_of_filter_eq
    (descending : one.Pairwise fun one other => ¬ (bean other).Outranks (bean one))
    (descendingToo : other.Pairwise fun one other => ¬ (bean other).Outranks (bean one))
    (same : ∀ rank, (one.filter fun item => (bean item).priority = rank) =
      other.filter fun item => (bean item).priority = rank) : one = other := by
  induction one generalizing other with
  | nil =>
      have empty : ∀ item, item ∉ other := fun item member =>
        List.not_mem_nil ((mem_iff_of_filter_eq same).2 member)
      exact (List.eq_nil_iff_forall_not_mem.2 empty).symm
  | cons head one ih =>
      cases other with
      | nil => exact absurd ((mem_iff_of_filter_eq same).1 List.mem_cons_self) List.not_mem_nil
      | cons first other =>
          -- Each head is a member of the other list, so the heads are of one rank.
          have sameRank : (bean head).priority = (bean first).priority := by
            apply Bean.priority_eq_of_not_outranks
            · exact not_outranks_head descendingToo
                ((mem_iff_of_filter_eq same).1 List.mem_cons_self)
            · exact not_outranks_head descending
                ((mem_iff_of_filter_eq same).2 List.mem_cons_self)
          have sameHead : head = first := by
            have ofRank := same (bean first).priority
            simp only [List.filter_cons, sameRank, decide_true, if_true] at ofRank
            exact (List.cons.inj ofRank).1
          subst sameHead
          congr 1
          apply ih descending.of_cons descendingToo.of_cons
          intro rank
          have ofRank := same rank
          by_cases isRank : (bean head).priority = rank <;>
            simpa [List.filter_cons, isRank] using ofRank

/-- A list has one order by priority. -/
theorem Ranked.unique (ranked : Ranked bean list one) (rankedToo : Ranked bean list other) :
    one = other :=
  eq_of_filter_eq ranked.descending rankedToo.descending fun rank =>
    (ranked.stable rank).trans (rankedToo.stable rank).symm

/-- An order by priority is what sorting gives. -/
theorem ranked_iff_eq_mergeSort : Ranked bean list one ↔
    one = list.mergeSort fun one other => (bean one).comesBefore (bean other) := by
  constructor
  · intro ranked
    exact ranked.unique (ranked_mergeSort bean list)
  · rintro rfl
    exact ranked_mergeSort bean list

/-- What is in order is in its own order. -/
theorem Ranked.again (ranked : Ranked bean list one) : Ranked bean one one :=
  ⟨.refl one, ranked.descending, fun _ => rfl⟩

/-- Sorting once more changes nothing. -/
theorem Ranked.mergeSort_eq (ranked : Ranked bean list one) :
    (one.mergeSort fun one other => (bean one).comesBefore (bean other)) = one :=
  (ranked_iff_eq_mergeSort.1 ranked.again).symm

end Unique

/-- Beans that are sorted by priority, with whatever is attached to them, come in the order of
their priorities, and no other list is in this order; the priority of a bean is the outermost
one along its chain of proxies.  Sorting once more changes nothing.  All this is also so of beans
in a heap, where the records at the ends of chains can stand in for further beans. -/
theorem Bean.sortByPriority_unique {α : Type} (beans : List (Bean × α)) :
    (∀ (bean : Bean) (priority : Int),
      bean.priority = some priority ↔ bean.HasPriority priority) ∧
    (∀ order, Ranked Prod.fst beans order ↔ order = sortByPriority beans) ∧
    sortByPriority (sortByPriority beans) = sortByPriority beans ∧
    ∀ heap : Heap,
      (∀ (bean : Bean) (priority : Int), (heap.outlook bean).priority = some priority ↔
        ∃ link, heap.Finds (·.priority) bean (link, priority)) ∧
      (∀ order, Ranked (fun entry => heap.outlook entry.1) beans order ↔
        order = heap.sortByPriority beans) ∧
      heap.sortByPriority (heap.sortByPriority beans) = heap.sortByPriority beans := by
  refine ⟨fun _ _ => priority_eq_some_iff, fun _ => ranked_iff_eq_mergeSort,
    (ranked_mergeSort Prod.fst beans).mergeSort_eq, ?_⟩
  intro heap
  refine ⟨fun bean _ => heap.priority_outlook_eq_some_iff bean, fun _ => ranked_iff_eq_mergeSort, ?_⟩
  exact (ranked_mergeSort (fun entry : Bean × α => heap.outlook entry.1) beans).mergeSort_eq

end BeanContainer
