import BeanContainer.Proofs.Property.Sequences

/-!
# Reading back a document

Setting a key to a plain document leaves nothing below the key but the leaves of the
document, whatever stood there before.  Every leaf is read at its own key, every other
key below is absent, and the sequence at the key of an array consists of the items that
are leaves, in the order of the array.
-/

namespace BeanContainer

/-- The other key is the key itself, or continues it with the mark of a step. -/
def PropertyKey.Covers (key other : String) : Prop :=
  other = key ∨ (∃ rest, other = key ++ "." ++ rest) ∨ ∃ rest, other = key ++ "[" ++ rest

theorem PropertyKey.Covers.isBelow {key other : String} (covers : Covers key other) :
    isBelow key other = true := by
  rw [isBelow_iff]
  rcases covers with rfl | ⟨rest, rfl⟩ | ⟨rest, rfl⟩
  · exact ⟨[], by simp, .nil⟩
  · exact ⟨'.' :: rest.toList, by simp, by simp [BeginsStep]⟩
  · exact ⟨'[' :: rest.toList, by simp, by simp [BeginsStep]⟩

/-! ## The leaves among the items of an array -/

namespace Document

/-- The items that are leaves, with their places and texts. -/
def leafItems (items : List Document) : List (Nat × String) :=
  items.zipIdx.filterMap fun (item, index) => item.leafText?.map fun text => (index, text)

theorem mem_leafItems_iff {items : List Document} {index : Nat} {text : String} :
    (index, text) ∈ leafItems items ↔ items[index]?.bind leafText? = some text := by
  simp [leafItems, List.mem_zipIdx_iff_getElem?, Option.bind_eq_some_iff]

theorem leafItems_ascending (items : List Document) :
    (leafItems items).Pairwise fun one other => one.1 < other.1 := by
  have places : items.zipIdx.Pairwise fun one other => one.2 < other.2 := by
    rw [← List.pairwise_map, List.zipIdx_map_snd]
    exact List.pairwise_lt_range'
  refine places.filterMap _ ?_
  rintro ⟨item, index⟩ ⟨other, otherIndex⟩ less _ found _ otherFound
  obtain ⟨text, _, rfl⟩ := Option.map_eq_some_iff.1 found
  obtain ⟨otherText, _, rfl⟩ := Option.map_eq_some_iff.1 otherFound
  exact less

theorem texts_leafItems (items : List Document) :
    (leafItems items).map (·.2) = items.filterMap leafText? := by
  calc (leafItems items).map (·.2)
    _ = items.zipIdx.filterMap fun entry => entry.1.leafText? := by
      simp [leafItems, List.map_filterMap, Function.comp_def]
    _ = (items.zipIdx.map (·.1)).filterMap leafText? := by
      rw [List.filterMap_map]
      rfl
    _ = items.filterMap leafText? := by rw [List.zipIdx_map_fst]

end Document

namespace PropertyStore

variable {store : PropertyStore} {key : String} {document : Document}

theorem mem_entries_iff (plain : document.IsPlain) {other text : String} :
    (other, text) ∈ document.entries key ↔
      ∃ path, document.textAt? path = some text ∧ other = Path.extend key path := by
  simp only [Document.entries, List.mem_map, Prod.exists, Prod.mk.injEq, plain.mem_leaves_iff]
  constructor
  · rintro ⟨path, _, found, rfl, rfl⟩
    exact ⟨path, found, rfl⟩
  · rintro ⟨path, found, rfl⟩
    exact ⟨path, text, found, rfl, rfl⟩

/-- No two leaves become properties of the same key. -/
theorem entries_agree (plain : document.IsPlain) {other text otherText : String}
    (member : (other, text) ∈ document.entries key)
    (otherMember : (other, otherText) ∈ document.entries key) : otherText = text := by
  obtain ⟨path, found, rfl⟩ := (mem_entries_iff plain).1 member
  obtain ⟨otherPath, otherFound, same⟩ := (mem_entries_iff plain).1 otherMember
  rw [Path.extend_injective (plain.steps_textAt? otherFound) (plain.steps_textAt? found) same,
    otherFound] at found
  exact Option.some.inj found

/-- Below the key stand the leaves of the document that was set, and nothing else. -/
theorem find?_set_eq_some_iff (plain : document.IsPlain) {other text : String}
    (below : PropertyKey.isBelow key other = true) :
    (store.set key document).values.find? other = some text ↔
      ∃ path, document.textAt? path = some text ∧ other = Path.extend key path := by
  rw [← mem_entries_iff plain]
  constructor
  · intro found
    by_cases given : ∃ value, (other, value) ∈ document.entries key
    · obtain ⟨value, member⟩ := given
      have stored := Table.find?_insertAll_of_agree
        (store.values.filterKeys fun other => !PropertyKey.isBelow key other) member
        fun _ => entries_agree plain member
      cases found.symm.trans stored
      exact member
    · have different : ∀ entry ∈ document.entries key, other ≠ entry.1 := by
        rintro entry member rfl
        exact given ⟨entry.2, member⟩
      rw [set, Table.find?_insertAll_of_ne _ different, Table.find?_filterKeys, below] at found
      cases found
  · intro member
    exact Table.find?_insertAll_of_agree _ member fun _ => entries_agree plain member

/-- Nothing is stored at the key of an array. -/
theorem find?_set_array (plain : document.IsPlain) {path : Path} {items : List Document}
    (found : document.part? path = some (.array items)) :
    (store.set key document).values.find? (Path.extend key path) = none := by
  cases stored : (store.set key document).values.find? (Path.extend key path) with
  | none => rfl
  | some text =>
      obtain ⟨other, otherFound, same⟩ :=
        (find?_set_eq_some_iff plain (PropertyKey.isBelow_extend key path)).1 stored
      rw [Path.extend_injective (plain.steps found) (plain.steps_textAt? otherFound) same.symm,
        Document.textAt?, found] at otherFound
      cases otherFound

/-- The indexed entries at the key of an array are its items that are leaves. -/
theorem mem_indexed_set_iff (plain : document.IsPlain) {path : Path} {items : List Document}
    (found : document.part? path = some (.array items)) {index text : String} :
    (index, text) ∈ indexed (Path.extend key path) (store.set key document).values.entries ↔
      ∃ place, index = toString place ∧ (place, text) ∈ Document.leafItems items := by
  simp only [mem_indexed_iff, ← Table.find?_eq_some_iff, Document.mem_leafItems_iff,
    ← Document.textAt?_item found]
  constructor
  · rintro ⟨other, stored, isIndexed⟩
    obtain ⟨otherPath, otherFound, rfl⟩ :=
      (find?_set_eq_some_iff plain (PropertyKey.isBelow_of_index? isIndexed)).1 stored
    obtain ⟨place, rfl, rfl⟩ := (PropertyKey.index?_extend_iff (plain.steps found)
      (plain.steps_textAt? otherFound)).1 isIndexed
    exact ⟨place, rfl, otherFound⟩
  · rintro ⟨place, rfl, itemFound⟩
    have isIndexed : PropertyKey.index? (Path.extend key path)
        (Path.extend key (path ++ [.item place])) = some (toString place) :=
      (PropertyKey.index?_extend_iff (plain.steps found) (plain.steps_textAt? itemFound)).2
        ⟨place, rfl, rfl⟩
    exact ⟨_, (find?_set_eq_some_iff plain (PropertyKey.isBelow_of_index? isIndexed)).2
      ⟨_, itemFound, rfl⟩, isIndexed⟩

/-- The items of an array that are leaves are stored under their numbers, in some order. -/
theorem indexed_set_perm (plain : document.IsPlain) {path : Path} {items : List Document}
    (found : document.part? path = some (.array items)) :
    (indexed (Path.extend key path) (store.set key document).values.entries).Perm
      ((Document.leafItems items).map fun entry => (toString entry.1, entry.2)) := by
  have apart : ((Document.leafItems items).map fun entry => (toString entry.1, entry.2)).Nodup := by
    refine List.pairwise_map.2 ((Document.leafItems_ascending items).imp fun less same => ?_)
    exact Nat.ne_of_lt less (Digits.toString_injective (Prod.mk.inj same).1)
  refine (List.perm_ext_iff_of_nodup (indexed_nodup _ _) apart).2 ?_
  rintro ⟨index, text⟩
  simp only [mem_indexed_set_iff plain found, List.mem_map, Prod.exists, Prod.mk.injEq]
  constructor
  · rintro ⟨place, rfl, member⟩
    exact ⟨place, text, member, rfl, rfl⟩
  · rintro ⟨place, _, member, rfl, rfl⟩
    exact ⟨place, rfl, member⟩

/-- At the key of an array its items that are leaves are found, in the order of the array. -/
theorem elements_set (plain : document.IsPlain) {path : Path} {items : List Document}
    (found : document.part? path = some (.array items)) (short : items.length ≤ 1 <<< 63) :
    elements (Path.extend key path) (store.set key document).values.entries =
      .ok (items.filterMap Document.leafText?) := by
  have small : ∀ entry ∈ Document.leafItems items, entry.1 < 1 <<< 63 := by
    rintro ⟨place, text⟩ member
    obtain ⟨item, isItem, _⟩ := Option.bind_eq_some_iff.1 (Document.mem_leafItems_iff.1 member)
    exact Nat.lt_of_lt_of_le (List.getElem?_eq_some_iff.1 isItem).1 short
  rw [elements_eq (Document.leafItems_ascending items) small (indexed_set_perm plain found),
    Document.texts_leafItems]

/-- The store answers below the key as the document does. -/
structure Represents (store : PropertyStore) (key : String) (document : Document) : Prop where
  /-- A scalar is read at the key of every leaf, without its default. -/
  leaf : ∀ path text, document.textAt? path = some text → ∀ default,
    store.read .scalar (Path.extend key path) default = .ok [text]
  /-- Below the key nothing but the leaves is stored. -/
  absent : ∀ other, PropertyKey.Covers key other →
    (∀ path text, document.textAt? path = some text → other ≠ Path.extend key path) →
      store.values.find? other = none
  /-- The sequence of an array with at least one leaf among its items consists of these
  leaves; an array has no more items than a signed word can count. -/
  sequence : ∀ path items, document.part? path = some (.array items) →
    items.length ≤ 1 <<< 63 → items.filterMap Document.leafText? ≠ [] → ∀ default,
      store.read .sequence (Path.extend key path) default =
        .ok (items.filterMap Document.leafText?)

theorem read_eq_of_stored? {shape : Shape} {values : List String}
    (stored : store.stored? shape key = .ok (some values)) (default : Option String) :
    store.read shape key default = .ok values := by
  unfold read
  rw [stored]
  rfl

/-- Setting a key to a plain document makes the store answer below the key as the document
does, whatever it held before. -/
theorem set_represents (store : PropertyStore) (key : String) {document : Document}
    (plain : document.IsPlain) : (store.set key document).Represents key document := by
  constructor
  · intro path text found
    apply read_eq_of_stored?
    rw [stored?, (find?_set_eq_some_iff plain (PropertyKey.isBelow_extend key path)).2
      ⟨path, found, rfl⟩]
  · intro other covers different
    rw [Option.eq_none_iff_forall_ne_some]
    intro text stored
    obtain ⟨path, found, same⟩ := (find?_set_eq_some_iff plain covers.isBelow).1 stored
    exact different path text found same
  · intro path items found short nonempty
    apply read_eq_of_stored?
    simp only [stored?, find?_set_array plain found, elements_set plain found short]
    change Except.ok (if List.isEmpty _ then none else some _) = _
    rw [if_neg (by simpa using nonempty)]

/-- A document whose array of ports has more items than digits, and one of hosts of which
some are no leaves; a field of it has the empty name. -/
def cluster : Document :=
  .object
    [("", .null),
      ("hosts", .array [.text "a", .array [.text "b"], .object [("up", .bool true)], .text "c"]),
      ("ports", .array ((List.range 11).map fun port => .number (.whole port)))]

theorem cluster_isPlain : cluster.IsPlain := by
  refine .object (by decide) (by simp [Step.IsPlain, IsMark]) ?_
  simp only [List.forall_mem_cons, List.not_mem_nil, false_implies, implies_true, and_true]
  refine ⟨.null, .array ?_, .array ?_⟩
  · simp only [List.forall_mem_cons, List.not_mem_nil, false_implies, implies_true, and_true]
    refine ⟨.text _, .array ?_, .object (by decide) (by simp [Step.IsPlain, IsMark]) ?_, .text _⟩
    · simpa using Document.IsPlain.text "b"
    · simpa using Document.IsPlain.bool true
  · rintro item member
    obtain ⟨port, _, rfl⟩ := List.mem_map.1 member
    exact .number _

/-- Properties of the shapes that the key had earlier. -/
def stale : PropertyStore :=
  .ofPairs [("db", "url"), ("db[0].up", "no"), ("db.hosts[4]", "d"), ("db.ports[0][1]", "1")]

theorem cluster_reads_back :
    cluster.IsPlain ∧
      (stale.set "db" cluster).read .scalar "db." (some "default") = .ok [""] ∧
      (stale.set "db" cluster).read .scalar "db.hosts[2].up" none = .ok ["true"] ∧
      (stale.set "db" cluster).values.find? "db[0].up" = none ∧
      (stale.set "db" cluster).read .sequence "db.hosts" none = .ok ["a", "c"] ∧
      (stale.set "db" cluster).read .sequence "db.ports" none =
        .ok ["0", "1", "2", "3", "4", "5", "6", "7", "8", "9", "10"] := by
  have represents := set_represents stale "db" cluster_isPlain
  refine ⟨cluster_isPlain, ?_, ?_, ?_, ?_, ?_⟩
  · exact represents.leaf [.field ""] "" (by decide +kernel) _
  · exact represents.leaf [.field "hosts", .item 2, .field "up"] "true" (by decide +kernel) _
  · refine represents.absent "db[0].up" (.inr (.inr ⟨"0].up", by decide +kernel⟩)) ?_
    intro path text found
    have apart : ∀ leaf ∈ cluster.leaves, "db[0].up" ≠ Path.extend "db" leaf.1 := by decide +kernel
    exact apart _ (cluster_isPlain.mem_leaves_iff.2 found)
  · exact represents.sequence [.field "hosts"] _ rfl (by decide +kernel) (by decide +kernel) _
  · exact represents.sequence [.field "ports"] _ rfl (by decide +kernel) (by decide +kernel) _

end PropertyStore
end BeanContainer
