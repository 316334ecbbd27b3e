import BeanContainer.Property.Document
import Mathlib.Data.List.Nodup

/-!
# Parts of a document

A path leads through a document from one part to the next, by the names of fields
and the places of items.  A document is plain if no two fields of one object share
a name and no name contains a mark that separates the steps of a key.  The leaves
of a plain document are listed once each, with the path that leads to them.
-/

namespace BeanContainer

/-- The characters at which the steps of a key begin and end. -/
def IsMark (character : Char) : Prop := character ∈ ['.', '[', ']']

/-- The step can be told from its neighbours in a key: the name of a field contains no
mark. -/
def Step.IsPlain : Step → Prop
  | .field name => ∀ character ∈ name.toList, ¬ IsMark character
  | .item _ => True

namespace Document

/-- The text of a leaf.  Arrays and objects are no leaves. -/
def leafText? : Document → Option String
  | .text content => some content
  | .number content => some content.text
  | .bool content => some (if content then "true" else "false")
  | .null => some ""
  | .array _ => none
  | .object _ => none

/-- The field or item to which the step leads, if the document has it. -/
def child? : Document → Step → Option Document
  | .object fields, .field name => fields.lookup name
  | .array items, .item index => items[index]?
  | _, _ => none

/-- The part to which the path leads, if the document has every field and item on it. -/
def part? (document : Document) : Path → Option Document
  | [] => some document
  | step :: path => (document.child? step).bind fun child => child.part? path

/-- The text of the leaf to which the path leads, if it leads to one. -/
def textAt? (document : Document) (path : Path) : Option String :=
  (document.part? path).bind leafText?

/-- In every object the fields have names of their own, and each name is free of marks. -/
inductive IsPlain : Document → Prop
  | text (content : String) : IsPlain (.text content)
  | number (content : DocumentNumber) : IsPlain (.number content)
  | bool (content : Bool) : IsPlain (.bool content)
  | null : IsPlain .null
  | array {items : List Document} (each : ∀ item ∈ items, IsPlain item) : IsPlain (.array items)
  | object {fields : List (String × Document)} (distinct : (fields.map (·.1)).Nodup)
      (names : ∀ field ∈ fields, (Step.field field.1).IsPlain)
      (each : ∀ field ∈ fields, IsPlain field.2) : IsPlain (.object fields)

/-- Among fields with names of their own, the field of a name is the only one. -/
theorem lookup_eq_some_iff_mem {fields : List (String × Document)}
    (distinct : (fields.map (·.1)).Nodup) {name : String} {value : Document} :
    fields.lookup name = some value ↔ (name, value) ∈ fields := by
  rw [List.lookup_eq_some_iff]
  constructor
  · rintro ⟨before, after, rfl, _⟩
    simp
  · intro member
    obtain ⟨before, after, rfl⟩ := List.append_of_mem member
    refine ⟨before, after, rfl, ?_⟩
    intro other earlier
    rw [List.map_append, List.map_cons, List.nodup_middle, List.nodup_cons] at distinct
    have different : name ≠ other.1 := by
      intro same
      exact distinct.1 (List.mem_append_left _ (List.mem_map.2 ⟨other, earlier, same.symm⟩))
    exact bne_iff_ne.2 different

/-! ## Paths through plain documents -/

theorem IsPlain.child {document child : Document} {step : Step} (plain : document.IsPlain)
    (found : document.child? step = some child) : step.IsPlain ∧ child.IsPlain := by
  cases plain with
  | text | number | bool | null => cases found
  | array each =>
      cases step with
      | field name => cases found
      | item index => exact ⟨trivial, each child (List.mem_of_getElem? found)⟩
  | object distinct names each =>
      cases step with
      | item index => cases found
      | field name =>
          have member := (lookup_eq_some_iff_mem distinct).1 found
          exact ⟨names _ member, each _ member⟩

/-- A path through a plain document takes plain steps. -/
theorem IsPlain.steps {document part : Document} {path : Path} (plain : document.IsPlain)
    (found : document.part? path = some part) : ∀ step ∈ path, step.IsPlain := by
  induction path generalizing document with
  | nil => simp
  | cons step path ih =>
      obtain ⟨child, first, rest⟩ := Option.bind_eq_some_iff.1 found
      have both := plain.child first
      exact List.forall_mem_cons.2 ⟨both.1, ih both.2 rest⟩

theorem IsPlain.steps_textAt? {document : Document} {path : Path} {text : String}
    (plain : document.IsPlain) (found : document.textAt? path = some text) :
    ∀ step ∈ path, step.IsPlain := by
  obtain ⟨part, reached, _⟩ := Option.bind_eq_some_iff.1 found
  exact plain.steps reached

theorem part?_append (document : Document) (path rest : Path) :
    document.part? (path ++ rest) = (document.part? path).bind fun part => part.part? rest := by
  induction path generalizing document with
  | nil => rfl
  | cons step path ih => simp only [List.cons_append, part?, ih, Option.bind_assoc]

/-- The items of an array are found one step behind it. -/
theorem textAt?_item {document : Document} {path : Path} {items : List Document}
    (found : document.part? path = some (.array items)) (index : Nat) :
    document.textAt? (path ++ [.item index]) = items[index]?.bind leafText? := by
  simp [textAt?, part?_append, found, part?, child?]

/-! ## The leaves that are listed -/

theorem mem_itemLeaves_iff {first : Nat} {items : List Document} {path : Path} {text : String} :
    (path, text) ∈ itemLeaves first items ↔
      ∃ index item rest, items[index]? = some item ∧ path = .item (first + index) :: rest ∧
        (rest, text) ∈ item.leaves := by
  induction items generalizing first with
  | nil => simp [itemLeaves]
  | cons head items ih =>
      rw [itemLeaves, List.mem_append, ih, List.mem_map]
      constructor
      · rintro (⟨⟨rest, _⟩, member, equal⟩ | ⟨index, item, rest, isItem, equal, member⟩)
        · cases equal
          exact ⟨0, head, rest, rfl, rfl, member⟩
        · refine ⟨index + 1, item, rest, isItem, ?_, member⟩
          rw [equal, Nat.add_right_comm, Nat.add_assoc]
      · rintro ⟨index, item, rest, isItem, rfl, member⟩
        cases index with
        | zero =>
            cases isItem
            exact .inl ⟨_, member, rfl⟩
        | succ index =>
            refine .inr ⟨index, item, rest, isItem, ?_, member⟩
            rw [Nat.add_right_comm, Nat.add_assoc]

theorem mem_fieldLeaves_iff {fields : List (String × Document)} {path : Path} {text : String} :
    (path, text) ∈ fieldLeaves fields ↔
      ∃ name value rest, (name, value) ∈ fields ∧ path = .field name :: rest ∧
        (rest, text) ∈ value.leaves := by
  induction fields with
  | nil => simp [fieldLeaves]
  | cons field fields ih =>
      obtain ⟨head, first⟩ := field
      rw [fieldLeaves, List.mem_append, ih, List.mem_map]
      constructor
      · rintro (⟨⟨rest, _⟩, member, equal⟩ | ⟨name, value, rest, isField, equal, member⟩)
        · cases equal
          exact ⟨head, first, rest, List.mem_cons_self, rfl, member⟩
        · exact ⟨name, value, rest, List.mem_cons_of_mem _ isField, equal, member⟩
      · rintro ⟨name, value, rest, isField, rfl, member⟩
        rcases List.mem_cons.1 isField with equal | later
        · cases equal
          exact .inl ⟨_, member, rfl⟩
        · exact .inr ⟨name, value, rest, later, rfl, member⟩

theorem nil_mem_leaves_iff {document : Document} {text : String} :
    ([], text) ∈ document.leaves ↔ document.leafText? = some text := by
  cases document with
  | text | number | bool | null => simp [leaves, leafText?, eq_comm]
  | array => simp [leaves, mem_itemLeaves_iff, leafText?]
  | object => simp [leaves, mem_fieldLeaves_iff, leafText?]

theorem IsPlain.cons_mem_leaves_iff {document : Document} (plain : document.IsPlain) {step : Step}
    {path : Path} {text : String} :
    (step :: path, text) ∈ document.leaves ↔
      ∃ child, document.child? step = some child ∧ (path, text) ∈ child.leaves := by
  cases plain with
  | text | number | bool | null => simp [leaves, child?]
  | array each =>
      simp only [leaves, mem_itemLeaves_iff, Nat.zero_add, List.cons.injEq]
      constructor
      · rintro ⟨index, item, _, isItem, ⟨rfl, rfl⟩, member⟩
        exact ⟨item, isItem, member⟩
      · rintro ⟨item, isItem, member⟩
        cases step with
        | field name => cases isItem
        | item index => exact ⟨index, item, path, isItem, ⟨rfl, rfl⟩, member⟩
  | object distinct names each =>
      simp only [leaves, mem_fieldLeaves_iff, List.cons.injEq]
      constructor
      · rintro ⟨name, value, _, isField, ⟨rfl, rfl⟩, member⟩
        exact ⟨value, (lookup_eq_some_iff_mem distinct).2 isField, member⟩
      · rintro ⟨value, isValue, member⟩
        cases step with
        | item index => cases isValue
        | field name =>
            exact ⟨name, value, path, (lookup_eq_some_iff_mem distinct).1 isValue, ⟨rfl, rfl⟩,
              member⟩

/-- The leaves that are listed are those to which a path leads, with their texts. -/
theorem IsPlain.mem_leaves_iff {document : Document} (plain : document.IsPlain) {path : Path}
    {text : String} : (path, text) ∈ document.leaves ↔ document.textAt? path = some text := by
  induction path generalizing document with
  | nil => exact nil_mem_leaves_iff
  | cons step path ih =>
      rw [plain.cons_mem_leaves_iff, textAt?, part?, Option.bind_assoc, Option.bind_eq_some_iff]
      refine exists_congr fun child => and_congr_right fun found => ?_
      exact ih (plain.child found).2

end Document
end BeanContainer
