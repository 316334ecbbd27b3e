import BeanContainer.Heap
import BeanContainer.Injection

/-!
# The beans inside a value

A wired value may hold beans: none if it is a scalar, one if it is a bean, those of
its items otherwise.  Casting and collecting neither drop a bean nor bring in
another one.
-/

namespace BeanContainer
namespace Value

/-- The beans inside a member of a type. -/
def beansOf : (type : ValueType) → type.Denote → List Bean
  | .scalar _, _ => []
  | .bean _, bean => [bean]
  | .list element, items => List.flatMap (beansOf element) items
  | .option _, none => []
  | .option element, some content => beansOf element content

/-- The beans inside a value. -/
def beans (value : Value) : List Bean := beansOf value.type value.content

@[simp] theorem beans_ofBean (target : TypeName) (bean : Bean) :
    (ofBean target bean).beans = [bean] := by
  simp [beans, ofBean, beansOf]

/-- A value that may be missing holds nothing that the value itself did not hold. -/
theorem mem_beans_of_mem_lift {type : ValueType} {value : Option Value} {bean : Bean}
    (member : bean ∈ (lift type value).beans) : ∃ held, value = some held ∧ bean ∈ held.beans := by
  cases value with
  | none => simp [lift, beans, beansOf] at member
  | some held =>
      refine ⟨held, rfl, ?_⟩
      simp only [lift, beans, Option.bind_some] at member
      cases read : held.as? type with
      | none => simp [read, beansOf] at member
      | some content =>
          simp only [read, beansOf] at member
          rw [as?_eq_some_iff.1 read]
          exact member

/-- A value keeps its beans when it is seen as one that may be missing. -/
theorem beans_lift (value : Value) : (lift value.type (some value)).beans = value.beans := by
  simp [lift, beans, beansOf]

/-- Reading values as members of one type keeps their beans. -/
theorem beans_of_mapM_as? {element : ValueType} {values : List Value}
    {contents : List element.Denote}
    (read : (values.mapM fun (value : Value) => value.as? element) = some contents) :
    contents.flatMap (beansOf element) = values.flatMap beans := by
  induction values generalizing contents with
  | nil =>
      simp only [List.mapM_nil, Option.pure_def, Option.some.injEq] at read
      subst read
      rfl
  | cons value values ih =>
      simp only [List.mapM_cons, Option.pure_def, Option.bind_eq_bind,
        Option.bind_eq_some_iff, Option.some.injEq] at read
      obtain ⟨content, first, rest, others, rfl⟩ := read
      rw [List.flatMap_cons, List.flatMap_cons, as?_eq_some_iff.1 first, ih others]
      rfl

/-- A list of values as one value holds the beans of the items. -/
theorem beans_of_collect? {element : ValueType} {values : List Value} {collected : Value}
    (done : collect? element values = some collected) :
    collected.beans = values.flatMap beans := by
  obtain ⟨contents, read, rfl⟩ := Option.map_eq_some_iff.1 done
  exact beans_of_mapM_as? read

/-- A property holds no bean. -/
@[simp] theorem beansOf_property (type : PropertyType) (content : type.valueType.Denote) :
    beansOf type.valueType content = [] := by
  cases type with
  | scalar type => rfl
  | list element =>
      apply List.flatMap_eq_nil_iff.2
      intro item _
      rfl

end Value

/-- What is injected holds exactly the beans that were collected for it. -/
theorem BeanTarget.beans_of_collect? {target : BeanTarget} {values : List Value}
    {collected : Value} (done : target.collect? values = some collected) :
    collected.beans = values.flatMap Value.beans := by
  unfold BeanTarget.collect? at done
  split at done
  · exact Value.beans_of_collect? done
  · split at done
    next bean =>
      simp only [Option.map_eq_some_iff] at done
      obtain ⟨content, first, rfl⟩ := done
      simp [Value.as?_eq_some_iff.1 first]
    next => cases done

namespace BeanTarget

variable {heap : Heap}

/-- What is injected for the beans: all of them as a list by the priorities that they have by now,
or the only one. -/
def inject (target : BeanTarget) (heap : Heap) (beans : List Bean) : Option Value :=
  if target.isMultiple then
    some ⟨.list (.bean target.element), beans.mergeSort heap.comesBefore⟩
  else beans.head?.map (Value.ofBean target.element)

theorem type_of_inject {target : BeanTarget} {beans : List Bean} {value : Value}
    (injected : target.inject heap beans = some value) : value.type = target.valueType := by
  unfold inject at injected
  unfold valueType
  split at injected
  next multiple =>
    cases injected
    rw [if_pos multiple]
  next single =>
    obtain ⟨_, _, rfl⟩ := Option.map_eq_some_iff.1 injected
    rw [if_neg single]
    rfl

/-- Beans seen as the element type make up a list. -/
theorem collect?_map_ofBean {target : BeanTarget} (multiple : target.isMultiple = true)
    (beans : List Bean) :
    target.collect? (beans.map (Value.ofBean target.element)) =
      some ⟨.list (.bean target.element), beans⟩ := by
  have read : (beans.map (Value.ofBean target.element)).mapM
      (fun (value : Value) => value.as? (.bean target.element)) = some beans := by
    induction beans with
    | nil => rfl
    | cons bean beans ih =>
        have first : (Value.ofBean target.element bean).as? (.bean target.element) = some bean :=
          Value.as?_eq_some_iff.2 rfl
        rw [List.map_cons, List.mapM_cons, first, ih]
        rfl
  unfold collect?
  rw [if_pos multiple, Value.collect?, read]
  rfl

/-- A single bean is injected as itself or as a list of its own. -/
theorem collect?_ofBean (target : BeanTarget) (bean : Bean) :
    target.collect? [Value.ofBean target.element bean] = target.inject heap [bean] := by
  unfold inject
  split
  next multiple =>
    rw [List.mergeSort_singleton]
    exact collect?_map_ofBean multiple [bean]
  next single =>
    have first : (Value.ofBean target.element bean).as? (.bean target.element) = some bean :=
      Value.as?_eq_some_iff.2 rfl
    simp only [collect?, if_neg single, first]
    rfl

/-- What is injected holds each of the given beans as often as it is given, if there is
room for them. -/
theorem beans_inject {target : BeanTarget} {beans : List Bean} {value : Value}
    (fits : target.isMultiple = true ∨ beans.length ≤ 1)
    (injected : target.inject heap beans = some value) : value.beans.Perm beans := by
  unfold inject at injected
  split at injected
  · cases injected
    have items : ∀ items : List Bean,
        (Value.mk (.list (.bean target.element)) items).beans = items := List.flatMap_singleton'
    rw [items]
    exact List.mergeSort_perm _ _
  next single =>
    obtain ⟨bean, isFirst, rfl⟩ := Option.map_eq_some_iff.1 injected
    obtain ⟨rest, rfl⟩ := List.head?_eq_some_iff.1 isFirst
    rcases fits with multiple | short
    · exact absurd multiple single
    · have alone : rest = [] := by simpa using short
      subst alone
      simp

end BeanTarget

/-- Sorting what beans carry is sorting the beans. -/
theorem Heap.sortByPriority_map {α : Type} (heap : Heap) (carries : Bean → α) (beans : List Bean) :
    (heap.sortByPriority (beans.map fun bean => (bean, carries bean))).map (·.2) =
      (beans.mergeSort heap.comesBefore).map carries := by
  have sorted : heap.sortByPriority (beans.map fun bean => (bean, carries bean)) =
      (beans.mergeSort heap.comesBefore).map fun bean => (bean, carries bean) := by
    symm
    apply List.map_mergeSort
    intro one _ other _
    rfl
  rw [sorted, List.map_map]
  rfl

/-- Beans that are seen as the element type and sorted are injected as a list. -/
theorem BeanTarget.collect?_sortByPriority {target : BeanTarget}
    (multiple : target.isMultiple = true) (heap : Heap) (beans : List Bean) :
    target.collect? ((heap.sortByPriority (beans.map fun bean =>
      (bean, Value.ofBean target.element bean))).map (·.2)) = target.inject heap beans := by
  rw [Heap.sortByPriority_map, collect?_map_ofBean multiple, inject, if_pos multiple]

end BeanContainer
