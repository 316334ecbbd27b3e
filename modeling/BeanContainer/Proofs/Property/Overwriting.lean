import BeanContainer.Proofs.Property.Writing

/-!
# What setting a key overwrites

Setting a key writes the keys below it and no others, and what it leaves there depends on
the key and the document alone.  So nothing of a document is left when its key is set
again, and keys whose regions are apart can be set in any order.  Two regions are apart
unless one of the keys is below the other; that the text of one starts the text of the
other, as `db` does with `dbx`, does not bring them together.

Documents are arbitrary here: names of fields may contain marks and several leaves of a
document may have one key.
-/

namespace BeanContainer

/-! ## Regions of keys -/

theorem BeginsStep.of_append {text rest : List Char} (begins : BeginsStep (text ++ rest)) :
    BeginsStep text := by
  cases text with
  | nil => exact .nil
  | cons mark text => simpa [BeginsStep] using begins

namespace PropertyKey

theorem covers_iff {key other : String} : Covers key other ↔ isBelow key other = true := by
  constructor
  · exact Covers.isBelow
  · intro below
    obtain ⟨rest, shape, begins⟩ := isBelow_iff.1 below
    cases rest with
    | nil =>
        left
        simpa [← String.toList_inj] using shape
    | cons mark rest =>
        right
        rcases begins mark rfl with rfl | rfl
        · left
          exact ⟨String.ofList rest, by simp [← String.toList_inj, shape]⟩
        · right
          exact ⟨String.ofList rest, by simp [← String.toList_inj, shape]⟩

instance (key other : String) : Decidable (Covers key other) :=
  decidable_of_iff _ covers_iff.symm

/-- The region below `db` has `db.x` and `db[0]` in it, and not `dbx`. -/
example : Covers "db" "db.x" ∧ Covers "db" "db[0]" ∧ ¬ Covers "db" "dbx" := by decide

/-- Only if one key is below the other do their regions meet. -/
theorem Covers.comparable {one other key : String} (covers : Covers one key)
    (otherCovers : Covers other key) : Covers one other ∨ Covers other one := by
  simp only [covers_iff, isBelow_iff] at covers otherCovers ⊢
  obtain ⟨rest, shape, begins⟩ := covers
  obtain ⟨after, otherShape, otherBegins⟩ := otherCovers
  have same : one.toList ++ rest = other.toList ++ after := shape.symm.trans otherShape
  rcases List.append_eq_append_iff.1 same with ⟨added, longer, equal⟩ | ⟨added, longer, equal⟩
  · left
    rw [equal] at begins
    exact ⟨added, longer, begins.of_append⟩
  · right
    rw [equal] at otherBegins
    exact ⟨added, longer, otherBegins.of_append⟩

end PropertyKey

/-! ## Writing a region -/

namespace PropertyStore

/-- Stores that hold the same text under every key are the same. -/
theorem eq_of_find? {store other : PropertyStore}
    (same : ∀ key, store.values.find? key = other.values.find? key) : store = other := by
  cases store
  cases other
  congr
  exact Table.ext_find? same

/-- All leaves of a document are stored below its key. -/
theorem covers_of_mem_entries {key : String} {document : Document} {entry : String × String}
    (member : entry ∈ document.entries key) : PropertyKey.Covers key entry.1 := by
  rw [PropertyKey.covers_iff]
  obtain ⟨leaf, _, rfl⟩ := List.mem_map.1 member
  exact PropertyKey.isBelow_extend key leaf.1

/-- After a key was set, the keys below it have what the document alone gives them, and the
others have what they had. -/
theorem find?_set (store : PropertyStore) (key : String) (document : Document) (other : String) :
    (store.set key document).values.find? other =
      if PropertyKey.Covers key other then (Table.ofList (document.entries key)).find? other
      else store.values.find? other := by
  split
  next below =>
    rw [PropertyKey.covers_iff] at below
    apply Table.find?_insertAll_congr
    simp [Table.find?_filterKeys, below]
  next apart =>
    have outside : ∀ entry ∈ document.entries key, other ≠ entry.1 := by
      intro entry member same
      subst same
      exact apart (covers_of_mem_entries member)
    rw [PropertyKey.covers_iff, Bool.not_eq_true] at apart
    rw [set, Table.find?_insertAll_of_ne _ outside, Table.find?_filterKeys]
    simp [apart]

/-- Setting a key again leaves nothing of what it was set to before. -/
theorem set_set (store : PropertyStore) (key : String) (earlier later : Document) :
    (store.set key earlier).set key later = store.set key later := by
  apply eq_of_find?
  intro other
  simp only [find?_set]
  split <;> rfl

/-- Keys neither of which is below the other can be set in either order. -/
theorem set_comm (store : PropertyStore) {key other : String} (document otherDocument : Document)
    (notBelow : ¬ PropertyKey.Covers key other) (notAbove : ¬ PropertyKey.Covers other key) :
    (store.set key document).set other otherDocument =
      (store.set other otherDocument).set key document := by
  apply eq_of_find?
  intro found
  simp only [find?_set]
  by_cases below : PropertyKey.Covers key found
  · have apart : ¬ PropertyKey.Covers other found := by
      intro otherBelow
      exact (below.comparable otherBelow).elim notBelow notAbove
    simp [below, apart]
  · simp [below]

/-- Setting a key leaves the leaves of the document below it, the last one under each key, and
changes nothing at the keys that are not below it.  It replaces whatever the key was set to
before, and can be exchanged with setting another key if neither is below the other. -/
theorem set_obeys_laws (store : PropertyStore) (key : String) :
    (∀ document other, PropertyKey.Covers key other →
      (store.set key document).values.find? other =
        (Table.ofList (document.entries key)).find? other) ∧
    (∀ document other, ¬ PropertyKey.Covers key other →
      (store.set key document).values.find? other = store.values.find? other) ∧
    (∀ earlier later, (store.set key earlier).set key later = store.set key later) ∧
    ∀ other document otherDocument, ¬ PropertyKey.Covers key other →
      ¬ PropertyKey.Covers other key →
        (store.set key document).set other otherDocument =
          (store.set other otherDocument).set key document := by
  refine ⟨?_, ?_, ?_, ?_⟩
  · intro document other below
    rw [find?_set, if_pos below]
  · intro document other notBelow
    rw [find?_set, if_neg notBelow]
  · exact set_set store key
  · intro other document otherDocument notBelow notAbove
    exact set_comm store document otherDocument notBelow notAbove

/-- Properties at and around the key `db`. -/
def neighbours : PropertyStore :=
  .ofPairs [("d", "1"), ("db", "2"), ("db.host", "3"), ("db[0]", "4"), ("dbx", "5")]

/-- A document of which two leaves have one key, since the name of a field has a dot in it. -/
def dotted : Document :=
  .object [("a", .object [("b", .bool true)]), ("a.b", .text "last")]

theorem neighbours_obey_laws :
    PropertyKey.Covers "db" "db.a.b" ∧ ¬ PropertyKey.Covers "db" "dbx" ∧
      ¬ PropertyKey.Covers "dbx" "db" ∧
      (neighbours.set "db" dotted).values.find? "db.a.b" = some "last" ∧
      (neighbours.set "db" dotted).values.find? "dbx" = some "5" ∧
      (neighbours.set "db" dotted).set "db" (.array [.null]) =
        neighbours.set "db" (.array [.null]) ∧
      (neighbours.set "db" dotted).set "dbx" dotted =
        (neighbours.set "dbx" dotted).set "db" dotted := by
  have below : PropertyKey.Covers "db" "db.a.b" := by decide
  have notBelow : ¬ PropertyKey.Covers "db" "dbx" := by decide
  have notAbove : ¬ PropertyKey.Covers "dbx" "db" := by decide
  obtain ⟨written, unchanged, replaced, exchanged⟩ := set_obeys_laws neighbours "db"
  refine ⟨below, notBelow, notAbove, ?_, ?_, replaced dotted _, ?_⟩
  · exact (written dotted "db.a.b" below).trans (by decide +kernel)
  · exact (unchanged dotted "dbx" notBelow).trans (by decide +kernel)
  · exact exchanged "dbx" dotted dotted notBelow notAbove

end PropertyStore
end BeanContainer
