import BeanContainer.Proofs.Literal
import BeanContainer.Proofs.Property.Sequences

/-!
# Reading a sequence

A sequence is the value under its key, or else the values of its elements by ascending
index, or else what the default is split into.  An element with an index that is no number
makes the reading fail, default or not.  The entries of a store are enumerated in no
particular order: the sequence does not depend on it, as long as no two elements have the
same number.
-/

namespace BeanContainer

/-! ## Splitting a text -/

/-- Nothing that a text is split into contains the separator. -/
theorem Text.notMem_of_mem_splitOn {separator : Char} {text part : List Char}
    (member : part ∈ text.splitOn separator) : separator ∉ part := by
  unfold List.splitOn at member
  induction text generalizing part with
  | nil =>
      rw [List.splitOnP_nil, List.mem_singleton] at member
      simp [member]
  | cons head text ih =>
      rw [List.splitOnP_cons_eq_if_modifyHead] at member
      split at member
      next =>
        rcases List.mem_cons.1 member with rfl | later
        · simp
        · exact ih later
      next differs =>
        obtain ⟨first, others, shape⟩ := List.exists_cons_of_ne_nil
          (List.splitOnP_ne_nil (fun c => c == separator) text)
        rw [shape, List.modifyHead_cons] at member
        rcases List.mem_cons.1 member with rfl | later
        · rintro (_ | ⟨_, inFirst⟩)
          · simp at differs
          · exact ih (shape ▸ List.mem_cons_self) inFirst
        · exact ih (shape ▸ List.mem_cons_of_mem _ later)

/-! ## Numbers of indices -/

namespace PropertyKey

/-- The number that an index spells, and zero for an index that is no literal. -/
def number (index : String) : IntegerType.i64.Range :=
  match IntegerType.i64.read? index.toList with
  | some number => number
  | none => ⟨0, by decide⟩

theorem read?_eq_number {index : String} (literal : IntegerType.i64.IsLiteral index) :
    IntegerType.i64.read? index.toList = some (number index) := by
  obtain ⟨value, found⟩ := Option.isSome_iff_exists.1 (IntegerType.isLiteral_iff.1 literal)
  rw [number, found]

theorem spells_number {index : String} (literal : IntegerType.i64.IsLiteral index) :
    IntegerType.i64.Spells index.toList (number index).val :=
  IntegerType.read?_eq_some_iff.1 (read?_eq_number literal)

end PropertyKey

namespace PropertyStore

/-! ## What a sequence consists of -/

/-- The value is stored as an element of the sequence under the index, which is any text
without brackets. -/
def HasElement (store : PropertyStore) (key index value : String) : Prop :=
  store.values.find? (key ++ "[" ++ index ++ "]") = some value ∧
    '[' ∉ index.toList ∧ ']' ∉ index.toList

theorem HasElement.unique {store : PropertyStore} {key index value other : String}
    (element : store.HasElement key index value) (otherElement : store.HasElement key index other) :
    value = other :=
  Option.some.inj (element.1.symm.trans otherElement.1)

/-- What reading the key as a sequence gives. -/
inductive ReadsSequence (store : PropertyStore) (key : String) (default : Option String) :
    Except PropertyError (List String) → Prop
  | single {value : String} (found : store.values.find? key = some value) :
      ReadsSequence store key default (.ok [value])
  | invalid {index value : String} (absent : store.values.find? key = none)
      (element : store.HasElement key index value)
      (noLiteral : ¬ IntegerType.i64.IsLiteral index) :
      ReadsSequence store key default (.error (.invalidIndex key index))
  | elements {order : List (String × String)} {numbers : List IntegerType.i64.Range}
      (absent : store.values.find? key = none) (nonempty : order ≠ [])
      (complete : ∀ index value, (index, value) ∈ order ↔ store.HasElement key index value)
      (once : (order.map (·.1)).Nodup)
      (numbered : List.Forall₂
        (fun entry number => IntegerType.i64.Spells entry.1.toList number.val) order numbers)
      (ascending : numbers.Pairwise fun one other => one.val ≤ other.val) :
      ReadsSequence store key default (.ok (order.map (·.2)))
  | split {text : String} {parts : List String} (absent : store.values.find? key = none)
      (noElement : ∀ index value, ¬ store.HasElement key index value)
      (isDefault : default = some text) (nonempty : text ≠ "")
      (joined : String.intercalate "," parts = text)
      (whole : ∀ part ∈ parts, ',' ∉ part.toList) :
      ReadsSequence store key default (.ok parts)
  | empty (absent : store.values.find? key = none)
      (noElement : ∀ index value, ¬ store.HasElement key index value)
      (isDefault : default = some "") :
      ReadsSequence store key default (.ok [])
  | missing (absent : store.values.find? key = none)
      (noElement : ∀ index value, ¬ store.HasElement key index value)
      (noDefault : default = none) :
      ReadsSequence store key default (.error (.notFound key))

/-- Reads the key as a sequence, with the entries of the store in the order in which they are
enumerated. -/
def readSequence (store : PropertyStore) (enumerated : List (String × String)) (key : String)
    (default : Option String) : Except PropertyError (List String) :=
  match store.values.find? key with
  | some value => .ok [value]
  | none =>
      match elements key enumerated with
      | .error error => .error error
      | .ok (first :: others) => .ok (first :: others)
      | .ok [] =>
          match default with
          | some text => .ok (ofDefault .sequence text)
          | none => .error (.notFound key)

/-- A key is read as a sequence by enumerating the entries in the order of their keys. -/
theorem read_eq_readSequence (store : PropertyStore) (key : String) (default : Option String) :
    store.read .sequence key default = store.readSequence store.values.entries key default := by
  unfold read stored? readSequence
  cases store.values.find? key with
  | some value => rfl
  | none =>
      cases elements key store.values.entries with
      | error error => rfl
      | ok values =>
          cases values with
          | cons first others => rfl
          | nil => cases default <;> rfl

/-! ## Elements in any order -/

section Enumerating

variable {store : PropertyStore} {key : String} {enumerated : List (String × String)}
  (same : enumerated.Perm store.values.entries)
include same

theorem mem_indexed_iff_hasElement {index value : String} :
    (index, value) ∈ indexed key enumerated ↔ store.HasElement key index value := by
  simp only [mem_indexed_iff, PropertyKey.index?_eq_some_iff, HasElement,
    Table.find?_eq_some_iff, same.mem_iff]
  constructor
  · rintro ⟨other, member, shape, free⟩
    have isKey : other = key ++ "[" ++ index ++ "]" :=
      String.toList_inj.1 (by simpa using shape)
    exact ⟨isKey ▸ member, free⟩
  · rintro ⟨member, free⟩
    exact ⟨_, member, by simp, free⟩

/-- No index occurs twice, however the entries are enumerated. -/
theorem nodup_indexed : ((indexed key enumerated).map (·.1)).Nodup := by
  have reordered : (indexed key enumerated).Perm (indexed key store.values.entries) :=
    same.filterMap _
  apply List.Nodup.map_on
  · rintro ⟨index, value⟩ member ⟨_, other⟩ otherMember rfl
    have element := (mem_indexed_iff_hasElement same).1 member
    rw [element.unique ((mem_indexed_iff_hasElement same).1 otherMember)]
  · exact reordered.nodup_iff.2 (indexed_nodup key store.values)

end Enumerating

/-! ## Elements in order -/

section Indexed

variable {key : String} {entries : List (String × String)}

theorem readIndex_of_isLiteral {entry : String × String}
    (literal : IntegerType.i64.IsLiteral entry.1) :
    readIndex key entry = .ok ((PropertyKey.number entry.1).val, entry.2) := by
  rw [readIndex, PropertyKey.read?_eq_number literal]

theorem readIndex_of_not_isLiteral {entry : String × String}
    (noLiteral : ¬ IntegerType.i64.IsLiteral entry.1) :
    readIndex key entry = .error (.invalidIndex key entry.1) := by
  rw [IntegerType.isLiteral_iff, Bool.not_eq_true, Option.isSome_eq_false_iff,
    Option.isNone_iff_eq_none] at noLiteral
  rw [readIndex, noLiteral]

/-- The elements in the order of their numbers. -/
def byNumber (entries : List (String × String)) : List (String × String) :=
  entries.mergeSort fun one other =>
    (PropertyKey.number one.1).val ≤ (PropertyKey.number other.1).val

theorem pairwise_byNumber (entries : List (String × String)) :
    (byNumber entries).Pairwise fun one other =>
      (PropertyKey.number one.1).val ≤ (PropertyKey.number other.1).val := by
  unfold byNumber
  exact pairwise_mergeSort_le
    (fun entry : String × String => (PropertyKey.number entry.1).val) entries

/-- Where every index is a literal, the values are listed by the numbers. -/
theorem elements_eq_byNumber
    (literals : ∀ entry ∈ indexed key entries, IntegerType.i64.IsLiteral entry.1) :
    elements key entries = .ok ((byNumber (indexed key entries)).map (·.2)) := by
  have reads : ∀ entry ∈ indexed key entries,
      readIndex key entry = .ok ((PropertyKey.number entry.1).val, entry.2) :=
    fun entry member => readIndex_of_isLiteral (literals entry member)
  have sorted : (byNumber (indexed key entries)).map
      (fun entry => ((PropertyKey.number entry.1).val, entry.2)) =
        ((indexed key entries).map
          fun entry => ((PropertyKey.number entry.1).val, entry.2)).mergeSort
            fun one other => one.1 ≤ other.1 :=
    List.map_mergeSort fun _ _ _ _ => rfl
  unfold elements
  rw [mapM_eq_ok reads]
  change Except.ok _ = _
  rw [← sorted, List.map_map]
  rfl

/-- Where some index is no literal, the reading fails with such an index. -/
theorem elements_eq_invalidIndex {entry : String × String} (member : entry ∈ indexed key entries)
    (noLiteral : ¬ IntegerType.i64.IsLiteral entry.1) :
    ∃ invalid ∈ indexed key entries, ¬ IntegerType.i64.IsLiteral invalid.1 ∧
      elements key entries = .error (.invalidIndex key invalid.1) := by
  unfold elements
  cases gathered : (indexed key entries).mapM (readIndex key) with
  | ok numbered =>
      have literal : ∀ entry number, readIndex key entry = .ok number →
          IntegerType.i64.IsLiteral entry.1 ∧ readIndex key entry = .ok number := by
        intro entry number isRead
        by_contra! fails
        have literal : ¬ IntegerType.i64.IsLiteral entry.1 := fun literal => fails literal isRead
        rw [readIndex_of_not_isLiteral literal] at isRead
        cases isRead
      have literals := (List.forall₂_and_left _ _).1
        ((mapM_eq_ok_iff.1 gathered).imp literal)
      exact absurd (literals.1 entry member) noLiteral
  | error error =>
      obtain ⟨before, invalid, after, shape, _, fails⟩ := mapM_eq_error_iff.1 gathered
      have isMember : invalid ∈ indexed key entries := by simp [shape]
      by_cases literal : IntegerType.i64.IsLiteral invalid.1
      · rw [readIndex_of_isLiteral literal] at fails
        cases fails
      · rw [readIndex_of_not_isLiteral literal] at fails
        cases fails
        exact ⟨invalid, isMember, literal, rfl⟩

end Indexed

/-- Elements with different numbers are listed in the same order, however they are
enumerated. -/
theorem byNumber_eq_of_perm {entries other : List (String × String)} (same : entries.Perm other)
    (apart : (entries.map fun entry => (PropertyKey.number entry.1).val).Nodup) :
    byNumber entries = byNumber other := by
  have sorted : entries.Perm (byNumber other) := same.trans (List.mergeSort_perm other _).symm
  have distinct : (byNumber other).Pairwise fun one other =>
      (PropertyKey.number one.1).val ≠ (PropertyKey.number other.1).val :=
    List.pairwise_map.1 ((sorted.map _).nodup_iff.1 apart)
  have strictly : (byNumber other).Pairwise fun one other =>
      (PropertyKey.number one.1).val < (PropertyKey.number other.1).val :=
    ((pairwise_byNumber other).and distinct).imp
      fun less => Int.lt_iff_le_and_ne.2 less
  exact (mergeSort_eq_of_perm strictly sorted :)

/-! ## The result -/

/-- What a default is split into, joined again, gives the default. -/
theorem readsSequence_ofDefault {store : PropertyStore} {key text : String}
    (absent : store.values.find? key = none)
    (noElement : ∀ index value, ¬ store.HasElement key index value) :
    store.ReadsSequence key (some text) (.ok (ofDefault .sequence text)) := by
  by_cases empty : text = ""
  · rw [empty]
    exact .empty absent noElement rfl
  · have split : ofDefault .sequence text = (text.toList.splitOn ',').map String.ofList :=
      if_neg (by simpa using empty)
    rw [split]
    refine .split absent noElement rfl empty ?_ ?_
    · apply String.toList_inj.1
      rw [String.toList_intercalate, List.map_map]
      simp [Function.comp_def, List.intercalate_splitOn]
    · intro part member
      obtain ⟨chars, isPart, rfl⟩ := List.mem_map.1 member
      simpa using Text.notMem_of_mem_splitOn isPart

/-- The elements by their numbers are the sequence, if there are any. -/
theorem readsSequence_byNumber {store : PropertyStore} {key : String}
    {enumerated : List (String × String)} (same : enumerated.Perm store.values.entries)
    (default : Option String) (absent : store.values.find? key = none)
    (literals : ∀ entry ∈ indexed key enumerated, IntegerType.i64.IsLiteral entry.1)
    (nonempty : byNumber (indexed key enumerated) ≠ []) :
    store.ReadsSequence key default (.ok ((byNumber (indexed key enumerated)).map (·.2))) := by
  have reordered : (byNumber (indexed key enumerated)).Perm (indexed key enumerated) :=
    List.mergeSort_perm _ _
  have numbered : List.Forall₂
      (fun entry number => IntegerType.i64.Spells entry.1.toList number.val)
      (byNumber (indexed key enumerated))
      ((byNumber (indexed key enumerated)).map fun entry => PropertyKey.number entry.1) := by
    rw [List.forall₂_map_right_iff, List.forall₂_same]
    intro entry member
    exact PropertyKey.spells_number (literals entry (reordered.mem_iff.1 member))
  apply ReadsSequence.elements absent nonempty
  case complete =>
    intro index value
    exact reordered.mem_iff.trans (mem_indexed_iff_hasElement same)
  case once => exact (reordered.map (·.1)).nodup_iff.2 (nodup_indexed same)
  case numbered => exact numbered
  case ascending => exact List.pairwise_map.2 (pairwise_byNumber _)

/-- Whatever is enumerated in whatever order, the sequence is what it has to be. -/
theorem readsSequence_readSequence {store : PropertyStore} {key : String}
    {enumerated : List (String × String)} (same : enumerated.Perm store.values.entries)
    (default : Option String) :
    store.ReadsSequence key default (store.readSequence enumerated key default) := by
  unfold readSequence
  split
  next value found => exact .single found
  next absent =>
    by_cases literals : ∀ entry ∈ indexed key enumerated, IntegerType.i64.IsLiteral entry.1
    · have listed := readsSequence_byNumber same default absent literals
      rw [elements_eq_byNumber literals]
      cases order : byNumber (indexed key enumerated) with
      | cons first others =>
          rw [order] at listed
          exact listed (List.cons_ne_nil _ _)
      | nil =>
          have nothing : indexed key enumerated = [] := by
            apply List.Perm.eq_nil
            rw [← order]
            exact (List.mergeSort_perm _ _).symm
          have noElement : ∀ index value, ¬ store.HasElement key index value := by
            intro index value element
            have member := (mem_indexed_iff_hasElement same).2 element
            rw [nothing] at member
            cases member
          cases default with
          | some text => exact readsSequence_ofDefault absent noElement
          | none => exact .missing absent noElement rfl
    · push Not at literals
      obtain ⟨entry, member, noLiteral⟩ := literals
      obtain ⟨⟨index, value⟩, isMember, invalid, fails⟩ :=
        elements_eq_invalidIndex member noLiteral
      rw [fails]
      exact .invalid absent ((mem_indexed_iff_hasElement same).1 isMember) invalid

/-- Every index of the sequence is a literal, and no number is spelled by two of them. -/
structure HasNumbers (store : PropertyStore) (key : String) : Prop where
  literal : ∀ index value, store.HasElement key index value → IntegerType.i64.IsLiteral index
  apart : ∀ index value other otherValue number, store.HasElement key index value →
    store.HasElement key other otherValue → IntegerType.i64.Spells index.toList number →
    IntegerType.i64.Spells other.toList number → index = other

section Enumerating

variable {store : PropertyStore} {key : String} {enumerated : List (String × String)}
  (same : enumerated.Perm store.values.entries)
include same

theorem isLiteral_of_mem_indexed (numbers : store.HasNumbers key) {entry : String × String}
    (member : entry ∈ indexed key enumerated) : IntegerType.i64.IsLiteral entry.1 :=
  numbers.literal _ _ ((mem_indexed_iff_hasElement same).1 member)

theorem nodup_number_indexed (numbers : store.HasNumbers key) :
    ((indexed key enumerated).map fun entry => (PropertyKey.number entry.1).val).Nodup := by
  refine List.Nodup.map_on ?_ (List.Nodup.of_map _ (nodup_indexed same))
  rintro ⟨index, value⟩ member ⟨other, otherValue⟩ otherMember equal
  have element := (mem_indexed_iff_hasElement same).1 member
  have otherElement := (mem_indexed_iff_hasElement same).1 otherMember
  have spells := PropertyKey.spells_number (numbers.literal _ _ element)
  have otherSpells := PropertyKey.spells_number (numbers.literal _ _ otherElement)
  rw [show PropertyKey.number index = PropertyKey.number other from Subtype.ext equal] at spells
  obtain rfl := numbers.apart _ _ _ _ _ element otherElement spells otherSpells
  rw [element.unique otherElement]

/-- Whether the elements have different numbers is seen in any enumeration. -/
theorem hasNumbers_of_nodup
    (literals : ∀ entry ∈ indexed key enumerated, IntegerType.i64.IsLiteral entry.1)
    (apart : ((indexed key enumerated).map
      fun entry => (PropertyKey.number entry.1).val).Nodup) : store.HasNumbers key where
  literal _ _ element := literals _ ((mem_indexed_iff_hasElement same).2 element)
  apart := by
    intro index value other otherValue number element otherElement spells otherSpells
    have member := (mem_indexed_iff_hasElement same).2 element
    have otherMember := (mem_indexed_iff_hasElement same).2 otherElement
    have isNumber := (PropertyKey.spells_number (literals _ member)).unique spells
    have isOtherNumber := (PropertyKey.spells_number (literals _ otherMember)).unique otherSpells
    have equal := List.inj_on_of_nodup_map apart member otherMember
      (isNumber.trans isOtherNumber.symm)
    exact congrArg Prod.fst equal

end Enumerating

/-- Elements with different numbers are read in the same order, however they are enumerated. -/
theorem elements_eq_of_perm {store : PropertyStore} {key : String}
    {enumerated other : List (String × String)} (numbers : store.HasNumbers key)
    (same : enumerated.Perm store.values.entries) (otherSame : other.Perm store.values.entries) :
    elements key other = elements key enumerated := by
  have reordered : (indexed key enumerated).Perm (indexed key other) :=
    (same.trans otherSame.symm).filterMap _
  rw [elements_eq_byNumber fun _ => isLiteral_of_mem_indexed same numbers,
    elements_eq_byNumber fun _ => isLiteral_of_mem_indexed otherSame numbers,
    byNumber_eq_of_perm reordered (nodup_number_indexed same numbers)]

/-- In whatever order the entries are enumerated, the key is read as the sequence it has to
be: the value under the key, or else all elements by ascending number, or else what the
default is split into.  If the numbers are different, the sequence is the same for every
enumeration. -/
theorem readSequence_in_any_order (store : PropertyStore) (key : String)
    (default : Option String) {enumerated : List (String × String)}
    (same : enumerated.Perm store.values.entries) :
    store.ReadsSequence key default (store.readSequence enumerated key default) ∧
    (store.HasNumbers key → ∀ other, other.Perm store.values.entries →
      store.readSequence other key default = store.readSequence enumerated key default) ∧
    store.read .sequence key default = store.readSequence store.values.entries key default := by
  refine ⟨readsSequence_readSequence same default, ?_, read_eq_readSequence store key default⟩
  intro numbers other otherSame
  unfold readSequence
  rw [elements_eq_of_perm numbers same otherSame]

/-- Elements that are out of order and of either sign, next to entries that only look like
elements. -/
def hosts : PropertyStore :=
  ofPairs [("hosts[10]", "c"), ("hosts[+2]", "b"), ("hosts[-1]", "a"), ("hosts[0][1]", "x"),
    ("hosts[0].name", "y"), ("hosts.size", "3")]

theorem hosts_hasNumbers : hosts.HasNumbers "hosts" :=
  hasNumbers_of_nodup (.refl hosts.values.entries) (by decide +kernel) (by decide +kernel)

/-- The elements stand by their numbers. -/
theorem hosts_elements :
    elements "hosts" hosts.values.entries.reverse = .ok ["a", "b", "c"] := by
  have order : byNumber (indexed "hosts" hosts.values.entries.reverse) =
      [("-1", "a"), ("+2", "b"), ("10", "c")] :=
    mergeSort_eq_of_perm (by decide +kernel) (by decide +kernel)
  rw [elements_eq_byNumber (by decide +kernel), order]
  rfl

theorem hosts_in_any_order :
    hosts.values.entries.reverse.Perm hosts.values.entries ∧ hosts.HasNumbers "hosts" ∧
      hosts.readSequence hosts.values.entries.reverse "hosts" (some "d,e") =
        .ok ["a", "b", "c"] ∧
      hosts.ReadsSequence "hosts" (some "d,e") (.ok ["a", "b", "c"]) ∧
      hosts.readSequence hosts.values.entries "hosts" (some "d,e") = .ok ["a", "b", "c"] := by
  have read : hosts.readSequence hosts.values.entries.reverse "hosts" (some "d,e") =
      .ok ["a", "b", "c"] := by
    have absent : hosts.values.find? "hosts" = none :=
      Option.isNone_iff_eq_none.1 (by decide +kernel)
    simp only [readSequence, absent, hosts_elements]
  obtain ⟨reads, unordered, _⟩ := readSequence_in_any_order hosts "hosts" (some "d,e")
    (List.reverse_perm hosts.values.entries)
  rw [read] at reads unordered
  exact ⟨List.reverse_perm _, hosts_hasNumbers, read, reads,
    unordered hosts_hasNumbers hosts.values.entries (.refl _)⟩

end PropertyStore
end BeanContainer
