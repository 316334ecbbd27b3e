import BeanContainer.Proofs.Literal
import BeanContainer.Proofs.Property.Writing

/-!
# Reading back a list

A list of texts, of truth values or of whole numbers of one type is set as an array and
read back as a list of the type.  Every member comes back as it was, in its place,
whatever stood below the key before and whatever default the reader brings along.

A list without members is the exception: an array without items stores nothing, so the key
reads like one that was never set.
-/

namespace BeanContainer

/-! ## Texts of whole numbers -/

namespace Digits

/-- A negative number is written with a sign and the digits of its amount. -/
theorem toList_toString_negSucc (number : Nat) :
    (toString (Int.negSucc number)).toList = '-' :: (toString (number + 1)).toList := by
  change ("-" ++ toString (number + 1)).toList = _
  simp

theorem not_isBlank_of_mem_toString {number : Int} {c : Char}
    (member : c ∈ (toString number).toList) : Text.isBlank c = false := by
  cases number with
  | ofNat number => exact Text.not_isBlank_of_isDigit (isDigit_of_mem_toString member)
  | negSucc number =>
      rw [toList_toString_negSucc, List.mem_cons] at member
      rcases member with rfl | digit
      · decide
      · exact Text.not_isBlank_of_isDigit (isDigit_of_mem_toString digit)

end Digits

/-- A number of the type is read back from its text. -/
theorem IntegerType.read?_toString_val {type : IntegerType} (value : type.Range) :
    type.read? (Text.trim (toString value.val).toList) = some value := by
  rw [Text.trim_eq_self fun _ => Digits.not_isBlank_of_mem_toString]
  obtain ⟨number, inside⟩ := value
  cases number with
  | ofNat number =>
      exact (type.read?_toString number).trans (ofInt?_eq_some_iff.2 rfl)
  | negSucc number =>
      have signed : type.isSigned = true := by
        by_contra unsigned
        rw [lowest, if_neg unsigned] at inside
        omega
      rw [Digits.toList_toString_negSucc, read?, if_pos signed, Digits.read?_toString]
      exact ofInt?_eq_some_iff.2 rfl

/-- A truth value is read back from its text. -/
theorem ScalarType.readBool?_text (content : Bool) :
    readBool? (if content then "true" else "false").toList = some content := by
  cases content <;> decide

/-! ## Leaves for scalars -/

/-- The scalar types that documents have leaves for: texts, truth values and whole numbers. -/
inductive DocumentType where
  | text
  | bool
  | integer (type : IntegerType)
  deriving DecidableEq, Repr

namespace DocumentType

/-- The type that the values are read as. -/
def scalar : DocumentType → ScalarType
  | .text => .text
  | .bool => .bool
  | .integer type => .integer type

/-- The leaf of a value. -/
def leaf : (type : DocumentType) → type.scalar.Denote → Document
  | .text, content => .text content
  | .bool, content => .bool content
  | .integer _, content => .number (.whole content.val)

variable (type : DocumentType)

/-- The array of a list. -/
def array (values : List type.scalar.Denote) : Document := .array (values.map type.leaf)

theorem isPlain_leaf (content : type.scalar.Denote) : (type.leaf content).IsPlain := by
  cases type with
  | text => exact .text content
  | bool => exact .bool content
  | integer integer => exact .number _

/-- A value is read back from the text of its leaf. -/
theorem read?_leaf (content : type.scalar.Denote) :
    ∃ text, (type.leaf content).leafText? = some text ∧ type.scalar.read? text = some content := by
  cases type with
  | text => exact ⟨content, rfl, rfl⟩
  | bool => exact ⟨_, rfl, ScalarType.readBool?_text content⟩
  | integer integer => exact ⟨_, rfl, IntegerType.read?_toString_val content⟩

/-- The texts of the leaves of a list, in their order. -/
def texts (values : List type.scalar.Denote) : List String :=
  (values.map type.leaf).filterMap Document.leafText?

theorem isEmpty_texts (values : List type.scalar.Denote) :
    (type.texts values).isEmpty = values.isEmpty := by
  cases values with
  | nil => rfl
  | cons content values =>
      obtain ⟨text, isText, _⟩ := type.read?_leaf content
      simp [texts, isText]

/-- A list is read back from the texts of its leaves. -/
theorem mapM_convert_texts (key : String) (values : List type.scalar.Denote) :
    (type.texts values).mapM (type.scalar.convert key) = .ok values := by
  induction values with
  | nil => rfl
  | cons content values ih =>
      obtain ⟨text, isText, isRead⟩ := type.read?_leaf content
      have texts_cons : type.texts (content :: values) = text :: type.texts values := by
        simp [texts, isText]
      have converted : type.scalar.convert key text = .ok content := by
        rw [ScalarType.convert, isRead]
      rw [texts_cons, List.mapM_cons, converted, ih]
      rfl

end DocumentType

/-! ## Lists in a store -/

namespace PropertyStore

variable {store : PropertyStore} {key : String}

/-- What is found at the key of an array is the texts of its leaves, if it has any. -/
theorem stored?_set_array {items : List Document} (plain : ∀ item ∈ items, item.IsPlain)
    (short : items.length ≤ 1 <<< 63) :
    (store.set key (.array items)).stored? .sequence key =
      .ok (if (items.filterMap Document.leafText?).isEmpty then none
        else some (items.filterMap Document.leafText?)) := by
  have unset : (store.set key (.array items)).values.find? (Path.extend key []) = none :=
    find?_set_array (.array plain) rfl
  have found : elements (Path.extend key []) (store.set key (.array items)).values.entries =
      .ok (items.filterMap Document.leafText?) :=
    elements_set (.array plain) rfl short
  rw [show Path.extend key [] = key from rfl] at unset found
  simp only [stored?, unset, found]
  rfl

/-- A key under which nothing is stored is read as its default. -/
theorem read_eq_of_unset {shape : Shape} (unset : store.stored? shape key = .ok none)
    (default : Option String) :
    store.read shape key default =
      match default with
      | some text => .ok (ofDefault shape text)
      | none => .error (.notFound key) := by
  unfold read
  rw [unset]
  cases default <;> rfl

variable (type : DocumentType)

/-- What is found at the key of a list is the texts of its members, if it has any. -/
theorem stored?_set_list {values : List type.scalar.Denote} (short : values.length ≤ 1 <<< 63) :
    (store.set key (type.array values)).stored? .sequence key =
      .ok (if values.isEmpty then none else some (type.texts values)) := by
  have plain : ∀ item ∈ values.map type.leaf, item.IsPlain := by
    intro item member
    obtain ⟨content, _, rfl⟩ := List.mem_map.1 member
    exact type.isPlain_leaf content
  rw [← type.isEmpty_texts]
  exact stored?_set_array plain (by simpa using short)

/-- A list without members leaves its key unset. -/
theorem readAs_set_nil (store : PropertyStore) (key : String) (default : Option String) :
    (store.set key (type.array [])).readAs (.list type.scalar) key default =
      match default with
      | some text => (PropertyType.list type.scalar).convert key (ofDefault .sequence text)
      | none => .error (.notFound key) := by
  have unset : (store.set key (type.array [])).stored? .sequence key = .ok none :=
    stored?_set_list type (Nat.zero_le _)
  change ((store.set key (type.array [])).read .sequence key default >>=
    (PropertyType.list type.scalar).convert key) = _
  rw [read_eq_of_unset unset]
  cases default <;> rfl

/-- A list that was set as an array is read back as it was, whatever the store held and
whatever the default is; a list has no more members than a signed word can count.  Only a
list without members leaves the key unset, so that the default counts, or the key is not
found. -/
theorem readAs_set_list (store : PropertyStore) (key : String) (default : Option String)
    (values : List type.scalar.Denote) (short : values.length ≤ 1 <<< 63) :
    (values ≠ [] →
      (store.set key (type.array values)).readAs (.list type.scalar) key default = .ok values) ∧
    (store.set key (type.array [])).readAs (.list type.scalar) key default =
      match default with
      | some text => (PropertyType.list type.scalar).convert key (ofDefault .sequence text)
      | none => .error (.notFound key) := by
  constructor
  · intro nonempty
    have stored : (store.set key (type.array values)).stored? .sequence key =
        .ok (some (type.texts values)) := by
      rw [stored?_set_list type short, if_neg (by simpa using nonempty)]
    change ((store.set key (type.array values)).read .sequence key default >>=
      (PropertyType.list type.scalar).convert key) = _
    rw [read_eq_of_stored? stored]
    exact type.mapM_convert_texts key values
  · exact readAs_set_nil type store key default

/-- Eleven numbers of eight bits, among them the least and the greatest. -/
def temperatures : List IntegerType.i8.Range :=
  [-128, -40, -10, -1, 0, 1, 9, 10, 40, 100, 127].filterMap IntegerType.i8.ofInt?

theorem temperatures_read_back :
    temperatures.length = 11 ∧ temperatures.length ≤ 1 <<< 63 ∧ temperatures ≠ [] ∧
      (stale.set "db.ports" ((DocumentType.integer .i8).array temperatures)).readAs
        (.list (.integer .i8)) "db.ports" (some "5,x") = .ok temperatures := by
  have short : temperatures.length ≤ 1 <<< 63 := by decide
  have nonempty : temperatures ≠ [] := List.ne_nil_of_length_pos (by decide)
  have readBack := readAs_set_list (.integer .i8) stale "db.ports" (some "5,x") temperatures short
  exact ⟨by decide, short, nonempty, readBack.1 nonempty⟩

/-- Not every list is read back: one without members is not found. -/
theorem not_reads_back_every_list :
    ¬ ∀ (store : PropertyStore) (key : String) (default : Option String) (type : DocumentType)
        (values : List type.scalar.Denote), values.length ≤ 1 <<< 63 →
      (store.set key (type.array values)).readAs (.list type.scalar) key default = .ok values := by
  intro always
  have unread := always empty "hosts" none .text [] (by decide)
  rw [readAs_set_nil] at unread
  cases unread

end PropertyStore
end BeanContainer
