/-!
# Tables kept in the order of their keys

Definitions, cached beans, properties and collected values are all found by a
key, and most of them are also listed in the order of their keys.  A `Table`
holds its entries strictly ascending, so every key occurs once and two tables
that answer every lookup alike are equal.
-/

namespace BeanContainer

universe u v

/-- Keys in a strict linear order that can be decided. -/
class Key (κ : Type u) extends LT κ where
  decidableLT (left right : κ) : Decidable (left < right)
  irrefl (key : κ) : ¬ key < key
  trans {first second third : κ} : first < second → second < third → first < third
  trichotomy (left right : κ) : left < right ∨ left = right ∨ right < left

namespace Key

instance decidable {κ : Type u} [Key κ] (left right : κ) : Decidable (left < right) :=
  decidableLT left right

/-- Texts are ordered by their characters' code points. -/
instance text : Key String where
  lt left right := left < right
  decidableLT _ _ := inferInstance
  irrefl := String.lt_irrefl
  trans := String.lt_trans
  trichotomy := Std.lt_trichotomy

/-- Positions are ordered by size. -/
instance position : Key Nat where
  lt left right := left < right
  decidableLT _ _ := inferInstance
  irrefl := Nat.lt_irrefl
  trans := Nat.lt_trans
  trichotomy := Nat.lt_trichotomy

theorem ne_of_lt {κ : Type u} [Key κ] {left right : κ} (less : left < right) : left ≠ right :=
  fun equal => irrefl right (equal ▸ less)

theorem lt_or_lt_iff_ne {κ : Type u} [Key κ] {left right : κ} :
    left < right ∨ right < left ↔ left ≠ right := by
  constructor
  · rintro (less | more)
    · exact ne_of_lt less
    · exact (ne_of_lt more).symm
  · intro different
    rcases trichotomy left right with less | equal | more
    · exact .inl less
    · exact absurd equal different
    · exact .inr more

theorem eq_of_not_lt {κ : Type u} [Key κ] {left right : κ}
    (notLess : ¬ left < right) (notMore : ¬ right < left) : left = right := by
  rcases trichotomy left right with less | equal | more
  · exact absurd less notLess
  · exact equal
  · exact absurd more notMore

end Key

/-- Entries in strictly ascending order of their keys. -/
structure Table (κ : Type u) [Key κ] (α : Type v) where
  entries : List (κ × α) := []
  ascending : entries.Pairwise (fun left right => left.1 < right.1) := by simp

namespace Table

variable {κ : Type u} [Key κ] {α : Type v}

/-! ## Operations on ascending lists -/

/-- The value beside the key in an ascending list. -/
def lookup (key : κ) : List (κ × α) → Option α
  | [] => none
  | (k, value) :: rest =>
      if key < k then none
      else if k < key then lookup key rest
      else some value

/-- The list with the value put at the key's place, instead of an older one. -/
def put (key : κ) (value : α) : List (κ × α) → List (κ × α)
  | [] => [(key, value)]
  | (k, older) :: rest =>
      if key < k then (key, value) :: (k, older) :: rest
      else if k < key then (k, older) :: put key value rest
      else (key, value) :: rest

theorem lookup_eq_some_iff {key : κ} {value : α} {list : List (κ × α)}
    (ascending : list.Pairwise (fun left right => left.1 < right.1)) :
    lookup key list = some value ↔ (key, value) ∈ list := by
  induction list with
  | nil => simp [lookup]
  | cons entry rest ih =>
      obtain ⟨k, older⟩ := entry
      obtain ⟨first, tail⟩ := List.pairwise_cons.1 ascending
      rw [lookup]
      split
      next less =>
        constructor
        · intro none
          cases none
        · intro member
          rcases List.mem_cons.1 member with equal | later
          · cases equal
            exact absurd less (Key.irrefl key)
          · exact absurd (Key.trans less (first _ later)) (Key.irrefl key)
      next notLess =>
        split
        next more =>
          rw [ih tail, List.mem_cons]
          constructor
          · exact .inr
          · rintro (equal | later)
            · cases equal
              exact absurd more (Key.irrefl key)
            · exact later
        next notMore =>
          have same : key = k := Key.eq_of_not_lt notLess notMore
          subst same
          rw [List.mem_cons]
          constructor
          · intro equal
            cases equal
            exact .inl rfl
          · rintro (equal | later)
            · cases equal
              rfl
            · exact absurd (first _ later) (Key.irrefl key)

theorem mem_put_iff {key : κ} {value : α} {list : List (κ × α)} {entry : κ × α}
    (ascending : list.Pairwise (fun left right => left.1 < right.1)) :
    entry ∈ put key value list ↔ entry = (key, value) ∨ entry.1 ≠ key ∧ entry ∈ list := by
  induction list with
  | nil => simp [put]
  | cons head rest ih =>
      obtain ⟨k, older⟩ := head
      obtain ⟨first, tail⟩ := List.pairwise_cons.1 ascending
      rw [put]
      split
      next less =>
        have apart : ∀ other ∈ (k, older) :: rest, other.1 ≠ key := by
          intro other member
          rcases List.mem_cons.1 member with equal | later
          · subst equal
            exact (Key.ne_of_lt less).symm
          · exact (Key.ne_of_lt (Key.trans less (first _ later))).symm
        constructor
        · intro member
          rcases List.mem_cons.1 member with equal | later
          · exact .inl equal
          · exact .inr ⟨apart entry later, later⟩
        · rintro (equal | ⟨_, later⟩)
          · exact List.mem_cons.2 (.inl equal)
          · exact List.mem_cons.2 (.inr later)
      next notLess =>
        split
        next more =>
          rw [List.mem_cons, ih tail, List.mem_cons]
          constructor
          · rintro (equal | equal | ⟨different, later⟩)
            · subst equal
              exact .inr ⟨Key.ne_of_lt more, .inl rfl⟩
            · exact .inl equal
            · exact .inr ⟨different, .inr later⟩
          · rintro (equal | ⟨different, equal | later⟩)
            · exact .inr (.inl equal)
            · exact .inl equal
            · exact .inr (.inr ⟨different, later⟩)
        next notMore =>
          have same : key = k := Key.eq_of_not_lt notLess notMore
          subst same
          have apart : ∀ other ∈ rest, other.1 ≠ key := fun other later =>
            (Key.ne_of_lt (first other later)).symm
          rw [List.mem_cons, List.mem_cons]
          constructor
          · rintro (equal | later)
            · exact .inl equal
            · exact .inr ⟨apart entry later, .inr later⟩
          · rintro (equal | ⟨different, equal | later⟩)
            · exact .inl equal
            · exact absurd (by rw [equal]) different
            · exact .inr later

theorem ascending_put {key : κ} {value : α} {list : List (κ × α)}
    (ascending : list.Pairwise (fun left right => left.1 < right.1)) :
    (put key value list).Pairwise (fun left right => left.1 < right.1) := by
  induction list with
  | nil => simp [put]
  | cons head rest ih =>
      obtain ⟨k, older⟩ := head
      obtain ⟨first, tail⟩ := List.pairwise_cons.1 ascending
      rw [put]
      split
      next less =>
        refine List.pairwise_cons.2 ⟨?_, ascending⟩
        intro other member
        rcases List.mem_cons.1 member with equal | later
        · subst equal
          exact less
        · exact Key.trans less (first _ later)
      next notLess =>
        split
        next more =>
          refine List.pairwise_cons.2 ⟨?_, ih tail⟩
          intro other member
          rcases (mem_put_iff tail).1 member with equal | ⟨_, later⟩
          · subst equal
            exact more
          · exact first _ later
        next notMore =>
          have same : key = k := Key.eq_of_not_lt notLess notMore
          subst same
          exact List.pairwise_cons.2 ⟨first, tail⟩

/-- Ascending lists with the same members are the same list. -/
theorem eq_of_mem_iff {left right : List (κ × α)}
    (leftAscending : left.Pairwise (fun first second => first.1 < second.1))
    (rightAscending : right.Pairwise (fun first second => first.1 < second.1))
    (same : ∀ entry, entry ∈ left ↔ entry ∈ right) : left = right := by
  induction left generalizing right with
  | nil =>
      cases right with
      | nil => rfl
      | cons head rest => exact absurd ((same head).2 (by simp)) (by simp)
  | cons head rest ih =>
      cases right with
      | nil => exact absurd ((same head).1 (by simp)) (by simp)
      | cons other others =>
          obtain ⟨headFirst, restAscending⟩ := List.pairwise_cons.1 leftAscending
          obtain ⟨otherFirst, othersAscending⟩ := List.pairwise_cons.1 rightAscending
          have equal : head = other := by
            rcases List.mem_cons.1 ((same head).1 (by simp)) with equal | later
            · exact equal
            · rcases List.mem_cons.1 ((same other).2 (by simp)) with equal | earlier
              · exact equal.symm
              · exact absurd (Key.trans (otherFirst _ later) (headFirst _ earlier))
                  (Key.irrefl _)
          subst equal
          congr
          apply ih restAscending othersAscending
          intro entry
          constructor
          · intro member
            rcases List.mem_cons.1 ((same entry).1 (by simp [member])) with equal | later
            · subst equal
              exact absurd (headFirst _ member) (Key.irrefl _)
            · exact later
          · intro member
            rcases List.mem_cons.1 ((same entry).2 (by simp [member])) with equal | later
            · subst equal
              exact absurd (otherFirst _ member) (Key.irrefl _)
            · exact later

/-! ## Operations on tables -/

/-- The table without entries. -/
def empty : Table κ α := {}

instance : EmptyCollection (Table κ α) := ⟨empty⟩
instance : Inhabited (Table κ α) := ⟨empty⟩

/-- The value stored under the key. -/
def find? (table : Table κ α) (key : κ) : Option α := lookup key table.entries

/-- Whether a value is stored under the key. -/
def contains (table : Table κ α) (key : κ) : Bool := (table.find? key).isSome

/-- Stores the value under the key, instead of an older one. -/
def insert (table : Table κ α) (key : κ) (value : α) : Table κ α where
  entries := put key value table.entries
  ascending := ascending_put table.ascending

/-- Keeps the entries whose key passes the test. -/
def filterKeys (table : Table κ α) (keep : κ → Bool) : Table κ α where
  entries := table.entries.filter fun entry => keep entry.1
  ascending := table.ascending.filter _

/-- Removes what is stored under the key. -/
def erase (table : Table κ α) (key : κ) : Table κ α :=
  table.filterKeys fun other => other < key || key < other

/-- The keys in ascending order. -/
def keys (table : Table κ α) : List κ := table.entries.map (·.1)

/-- How many entries there are. -/
def size (table : Table κ α) : Nat := table.entries.length

/-- Stores the entries one after the other, so that the last one under a key stays. -/
def insertAll (table : Table κ α) (entries : List (κ × α)) : Table κ α :=
  entries.foldl (fun table entry => table.insert entry.1 entry.2) table

/-- The table of the given entries, the last one under each key. -/
def ofList (entries : List (κ × α)) : Table κ α := empty.insertAll entries

theorem find?_eq_some_iff {table : Table κ α} {key : κ} {value : α} :
    table.find? key = some value ↔ (key, value) ∈ table.entries :=
  lookup_eq_some_iff table.ascending

theorem mem_insert_iff {table : Table κ α} {key : κ} {value : α} {entry : κ × α} :
    entry ∈ (table.insert key value).entries ↔
      entry = (key, value) ∨ entry.1 ≠ key ∧ entry ∈ table.entries :=
  mem_put_iff table.ascending

@[simp] theorem find?_empty (key : κ) : (empty : Table κ α).find? key = none := rfl

@[simp] theorem find?_insert_self (table : Table κ α) (key : κ) (value : α) :
    (table.insert key value).find? key = some value :=
  find?_eq_some_iff.2 (mem_insert_iff.2 (.inl rfl))

/-- Lookups that agree on every result are equal. -/
private theorem option_ext {left right : Option α}
    (same : ∀ value, left = some value ↔ right = some value) : left = right := by
  cases left with
  | none =>
      cases right with
      | none => rfl
      | some value => exact ((same value).2 rfl)
  | some value => exact ((same value).1 rfl).symm

theorem find?_insert_of_ne (table : Table κ α) {key other : κ} (value : α)
    (different : other ≠ key) : (table.insert key value).find? other = table.find? other := by
  apply option_ext
  intro found
  simp only [find?_eq_some_iff, mem_insert_iff]
  constructor
  · rintro (equal | ⟨_, member⟩)
    · exact absurd (congrArg Prod.fst equal) different
    · exact member
  · intro member
    exact .inr ⟨different, member⟩

theorem find?_filterKeys (table : Table κ α) (keep : κ → Bool) (key : κ) :
    (table.filterKeys keep).find? key = if keep key then table.find? key else none := by
  apply option_ext
  intro found
  simp only [find?_eq_some_iff, filterKeys, List.mem_filter]
  by_cases kept : keep key
  · simp [kept, find?_eq_some_iff]
  · simp [kept]

@[simp] theorem find?_erase_self (table : Table κ α) (key : κ) :
    (table.erase key).find? key = none := by
  simp [erase, find?_filterKeys, Key.irrefl]

theorem find?_erase_of_ne (table : Table κ α) {key other : κ} (different : other ≠ key) :
    (table.erase key).find? other = table.find? other := by
  have apart : (decide (other < key) || decide (key < other)) = true := by
    simpa using Key.lt_or_lt_iff_ne.2 different
  simp [erase, find?_filterKeys, apart]

/-- What is found after a value was stored is the value, or was found before. -/
theorem find?_insert_eq_some_iff {table : Table κ α} {key other : κ} {value found : α} :
    (table.insert key value).find? other = some found ↔
      (other = key ∧ value = found) ∨ (other ≠ key ∧ table.find? other = some found) := by
  by_cases same : other = key
  · subst same
    simp
  · simp [same, find?_insert_of_ne]

/-- What is found after a key was removed was found before, under another key. -/
theorem find?_erase_eq_some_iff {table : Table κ α} {key other : κ} {found : α} :
    (table.erase key).find? other = some found ↔
      other ≠ key ∧ table.find? other = some found := by
  by_cases same : other = key
  · subst same
    simp
  · simp [same, find?_erase_of_ne]

/-- A new key hides none that the table has. -/
theorem find?_insert_of_absent {table : Table κ α} {key other : κ} {found : α} (value : α)
    (absent : table.find? key = none) (present : table.find? other = some found) :
    (table.insert key value).find? other = some found := by
  have different : other ≠ key := by
    intro same
    rw [same, absent] at present
    cases present
  exact (find?_insert_of_ne table value different).trans present

/-- Entries under other keys leave what is stored under the key. -/
theorem find?_insertAll_of_ne (table : Table κ α) {entries : List (κ × α)} {key : κ}
    (different : ∀ entry ∈ entries, key ≠ entry.1) :
    (table.insertAll entries).find? key = table.find? key := by
  induction entries generalizing table with
  | nil => rfl
  | cons entry entries ih =>
      have others := ih (table.insert entry.1 entry.2) fun other later =>
        different other (List.mem_cons_of_mem _ later)
      exact others.trans
        (find?_insert_of_ne table entry.2 (different entry List.mem_cons_self))

/-- Entries that agree about the key store their value under it. -/
theorem find?_insertAll_of_agree (table : Table κ α) {entries : List (κ × α)} {key : κ} {value : α}
    (member : (key, value) ∈ entries) (agree : ∀ other, (key, other) ∈ entries → other = value) :
    (table.insertAll entries).find? key = some value := by
  induction entries generalizing table with
  | nil => cases member
  | cons entry entries ih =>
      by_cases later : (key, value) ∈ entries
      · exact ih _ later fun other isLater => agree other (List.mem_cons_of_mem _ isLater)
      · have isHead : (key, value) = entry := (List.mem_cons.1 member).resolve_right later
        subst isHead
        have different : ∀ other ∈ entries, key ≠ other.1 := by
          rintro ⟨_, found⟩ isLater rfl
          exact later (agree found (List.mem_cons_of_mem _ isLater) ▸ isLater)
        exact (find?_insertAll_of_ne _ different).trans (find?_insert_self _ _ _)

/-- What is found after entries were stored depends on nothing else that the table held. -/
theorem find?_insertAll_congr {table other : Table κ α} {key : κ}
    (same : table.find? key = other.find? key) (entries : List (κ × α)) :
    (table.insertAll entries).find? key = (other.insertAll entries).find? key := by
  induction entries generalizing table other with
  | nil => exact same
  | cons entry entries ih =>
      have afterHead : (table.insert entry.1 entry.2).find? key =
          (other.insert entry.1 entry.2).find? key := by
        by_cases isHead : key = entry.1
        · simp [isHead]
        · simp [find?_insert_of_ne, isHead, same]
      exact ih afterHead

/-- Tables that answer every lookup alike are equal. -/
theorem ext_find? {left right : Table κ α}
    (same : ∀ key, left.find? key = right.find? key) : left = right := by
  have entries : left.entries = right.entries := by
    apply eq_of_mem_iff left.ascending right.ascending
    rintro ⟨key, value⟩
    rw [← find?_eq_some_iff, ← find?_eq_some_iff, same]
  cases left
  cases right
  cases entries
  rfl

/-- Removing what was just stored gives back a table that lacked the key. -/
theorem erase_insert {table : Table κ α} {key : κ} (value : α)
    (absent : table.find? key = none) : (table.insert key value).erase key = table := by
  apply ext_find?
  intro other
  by_cases same : other = key
  · subst same
    rw [find?_erase_self, absent]
  · rw [find?_erase_of_ne _ same, find?_insert_of_ne _ _ same]

@[simp] theorem mem_keys_iff {table : Table κ α} {key : κ} :
    key ∈ table.keys ↔ table.contains key = true := by
  simp only [keys, List.mem_map, contains, Option.isSome_iff_exists, find?_eq_some_iff]
  constructor
  · rintro ⟨⟨_, value⟩, member, rfl⟩
    exact ⟨value, member⟩
  · rintro ⟨value, member⟩
    exact ⟨(key, value), member, rfl⟩

/-- No key is listed twice. -/
theorem keys_nodup (table : Table κ α) : table.keys.Nodup :=
  (List.pairwise_map.2 (table.ascending.imp Key.ne_of_lt))

/-- Tables with the same keys list them in the same order. -/
theorem keys_eq {left right : Table κ α} (same : ∀ key, key ∈ left.keys ↔ key ∈ right.keys) :
    left.keys = right.keys := by
  have reordered : left.keys.Perm right.keys :=
    (List.perm_ext_iff_of_nodup left.keys_nodup right.keys_nodup).2 same
  refine reordered.eq_of_pairwise ?_ (List.pairwise_map.2 left.ascending)
    (List.pairwise_map.2 right.ascending)
  intro one other _ _ less more
  exact absurd (Key.trans less more) (Key.irrefl one)

end Table
end BeanContainer
