import BeanContainer.Proofs.Property.Documents
import BeanContainer.Property.Store

/-!
# Keys of parts

The key of a part is the key of the document, continued with the steps on the way to
the part.  Each step begins with a mark, and no mark stands inside of a plain step, so
the steps can be read off the key again: different plain paths have different keys, and
`key[i]` belongs to an item of the array at `key` and to nothing else.
-/

namespace BeanContainer

/-! ## Numbers in keys -/

namespace Digits

theorem toList_toString (number : Nat) : (toString number).toList = Nat.toDigits 10 number :=
  Nat.toList_repr

theorem isDigit_of_mem_toString {number : Nat} {digit : Char}
    (member : digit ∈ (toString number).toList) : digit.isDigit := by
  rw [toList_toString] at member
  exact Nat.isDigit_of_mem_toDigits (by decide) (by decide) member

theorem value_toString (number : Nat) : value (toString number).toList = number := by
  rw [toList_toString]
  exact Nat.ofDigitChars_ten_toDigits

theorem toString_injective : Function.Injective (toString : Nat → String) := by
  intro number other same
  rw [← value_toString number, same, value_toString]

/-- The digits of a number are read as the number. -/
theorem read?_toString (number : Nat) : read? (toString number).toList = some number := by
  have digits : (toString number).toList.all Char.isDigit :=
    List.all_eq_true.2 fun _ => isDigit_of_mem_toString
  have nonempty : (toString number).toList ≠ [] := by
    rw [toList_toString]
    exact Nat.toDigits_ne_nil
  rw [read?, if_pos ⟨nonempty, digits⟩, value_toString]

theorem not_isMark_of_mem_toString {number : Nat} {digit : Char}
    (member : digit ∈ (toString number).toList) : ¬ IsMark digit := by
  have isDigit := isDigit_of_mem_toString member
  intro isMark
  simp only [IsMark, List.mem_cons, List.not_mem_nil, or_false] at isMark
  rcases isMark with rfl | rfl | rfl <;> exact absurd isDigit (by decide)

end Digits

/-- A literal without a sign is read as the number of its digits. -/
theorem IntegerType.read?_toString (type : IntegerType) (number : Nat) :
    type.read? (toString number).toList = type.ofInt? number := by
  have unsigned : ∀ sign digits, (toString number).toList = sign :: digits → sign.isDigit := by
    intro sign digits shape
    exact Digits.isDigit_of_mem_toString (shape ▸ List.mem_cons_self)
  unfold IntegerType.read?
  split
  next digits shape => exact absurd (unsigned _ _ shape) (by decide)
  next digits shape => exact absurd (unsigned _ _ shape) (by decide)
  next => rw [Digits.read?_toString, Option.bind_some]

/-! ## Steps in keys -/

/-- The text is empty or starts with the mark of a step. -/
def BeginsStep (text : List Char) : Prop := ∀ mark ∈ text.head?, mark = '.' ∨ mark = '['

namespace BeginsStep

theorem nil : BeginsStep [] := by simp [BeginsStep]

theorem isMark {text : List Char} (begins : BeginsStep text) :
    ∀ mark ∈ text.head?, IsMark mark := by
  intro mark isHead
  rcases begins mark isHead with rfl | rfl <;> simp [IsMark]

end BeginsStep

/-- Texts without marks end at the first mark. -/
theorem append_inj_of_isMark {text other rest after : List Char}
    (free : ∀ character ∈ text, ¬ IsMark character)
    (otherFree : ∀ character ∈ other, ¬ IsMark character)
    (marked : ∀ mark ∈ rest.head?, IsMark mark) (otherMarked : ∀ mark ∈ after.head?, IsMark mark)
    (same : text ++ rest = other ++ after) : text = other ∧ rest = after := by
  rcases List.append_eq_append_iff.1 same with ⟨added, rfl, rfl⟩ | ⟨added, rfl, rfl⟩
  · cases added with
    | nil => simp
    | cons mark added => exact absurd (marked mark rfl) (otherFree mark (by simp))
  · cases added with
    | nil => simp
    | cons mark added => exact absurd (otherMarked mark rfl) (free mark (by simp))

namespace Step

@[simp] theorem toList_text_field (name : String) :
    (field name).text.toList = '.' :: name.toList := by
  simp [text]

@[simp] theorem toList_text_item (index : Nat) :
    (item index).text.toList = '[' :: ((toString index).toList ++ [']']) := by
  simp [text]

/-- Plain steps can be read off the text that starts with them. -/
theorem text_append_inj {step other : Step} (plain : step.IsPlain) (otherPlain : other.IsPlain)
    {rest after : List Char} (begins : BeginsStep rest) (otherBegins : BeginsStep after)
    (same : step.text.toList ++ rest = other.text.toList ++ after) :
    step = other ∧ rest = after := by
  cases step with
  | field name =>
      cases other with
      | field otherName =>
          have texts : name.toList ++ rest = otherName.toList ++ after := by simpa using same
          obtain ⟨names, rests⟩ :=
            append_inj_of_isMark plain otherPlain begins.isMark otherBegins.isMark texts
          exact ⟨congrArg field (String.toList_inj.1 names), rests⟩
      | item index => simp at same
  | item index =>
      cases other with
      | field name => simp at same
      | item otherIndex =>
          have texts : (toString index).toList ++ ']' :: rest =
              (toString otherIndex).toList ++ ']' :: after := by simpa using same
          have bracket : ∀ text : List Char, ∀ mark ∈ (']' :: text).head?, IsMark mark := by
            simp [IsMark]
          obtain ⟨digits, rests⟩ := append_inj_of_isMark
            (fun _ => Digits.not_isMark_of_mem_toString)
            (fun _ => Digits.not_isMark_of_mem_toString) (bracket rest) (bracket after) texts
          have indices := Digits.toString_injective (String.toList_inj.1 digits)
          exact ⟨congrArg item indices, (List.cons.inj rests).2⟩

end Step

/-! ## Paths in keys -/

namespace Path

/-- What the path adds to a key. -/
def added (path : Path) : List Char := path.flatMap fun step => step.text.toList

theorem toList_extend (key : String) (path : Path) :
    (path.extend key).toList = key.toList ++ path.added := by
  unfold extend
  induction path generalizing key with
  | nil => simp [added]
  | cons step path ih => rw [List.foldl_cons, ih]; simp [added]

theorem beginsStep_append (path : Path) {rest : List Char} (begins : BeginsStep rest) :
    BeginsStep (path.added ++ rest) := by
  cases path with
  | nil => exact begins
  | cons step path => cases step <;> simp [added, BeginsStep]

/-- A plain path whose text starts with that of another one starts with its steps. -/
theorem eq_append_of_added {path other : Path} (plain : ∀ step ∈ path, step.IsPlain)
    (otherPlain : ∀ step ∈ other, step.IsPlain) {rest : List Char} (begins : BeginsStep rest)
    (same : other.added = path.added ++ rest) :
    ∃ tail, other = path ++ tail ∧ added tail = rest := by
  induction path generalizing other with
  | nil => exact ⟨other, rfl, same⟩
  | cons step path ih =>
      cases other with
      | nil => cases step <;> simp [added] at same
      | cons first other =>
          obtain ⟨isPlain, plainTail⟩ := List.forall_mem_cons.1 plain
          obtain ⟨isOtherPlain, otherPlainTail⟩ := List.forall_mem_cons.1 otherPlain
          have texts : first.text.toList ++ (added other ++ []) =
              step.text.toList ++ (added path ++ rest) := by simpa [added] using same
          obtain ⟨rfl, tails⟩ := Step.text_append_inj isOtherPlain isPlain
            (beginsStep_append other .nil) (beginsStep_append path begins) texts
          obtain ⟨tail, rfl, equal⟩ := ih plainTail otherPlainTail (by simpa using tails)
          exact ⟨tail, rfl, equal⟩

theorem added_eq_nil_iff {path : Path} : path.added = [] ↔ path = [] := by
  cases path with
  | nil => simp [added]
  | cons step path => cases step <;> simp [added]

/-- Different plain paths lead to different keys. -/
theorem extend_injective {key : String} {path other : Path}
    (plain : ∀ step ∈ path, step.IsPlain) (otherPlain : ∀ step ∈ other, step.IsPlain)
    (same : other.extend key = path.extend key) : other = path := by
  have texts : other.added = path.added ++ [] := by
    simpa [toList_extend] using congrArg String.toList same
  obtain ⟨tail, rfl, none⟩ := eq_append_of_added plain otherPlain .nil texts
  rw [added_eq_nil_iff.1 none, List.append_nil]

end Path

/-! ## Tests of keys -/

namespace PropertyKey

theorem isBelow_iff {key other : String} :
    isBelow key other = true ↔ ∃ rest, other.toList = key.toList ++ rest ∧ BeginsStep rest := by
  unfold isBelow
  split
  next absent =>
    simp only [Bool.false_eq_true, false_iff, not_exists]
    rintro rest ⟨shape, _⟩
    simp [shape] at absent
  next equal =>
    exact iff_of_true rfl ⟨[], Text.dropFront?_eq_some_iff.1 equal, .nil⟩
  next mark rest found =>
    have shape := Text.dropFront?_eq_some_iff.1 found
    simp [shape, BeginsStep]

theorem index?_eq_some_iff {key other text : String} :
    index? key other = some text ↔
      other.toList = key.toList ++ '[' :: (text.toList ++ [']']) ∧
        '[' ∉ text.toList ∧ ']' ∉ text.toList := by
  simp only [index?, Option.bind_eq_bind, Option.bind_eq_some_iff, Text.dropFront?_eq_some_iff,
    Text.dropBack?_eq_some_iff]
  constructor
  · rintro ⟨_, shape, _, rfl, index, rfl, found⟩
    split at found
    next => cases found
    next free =>
      cases found
      exact ⟨by simpa using shape, by simpa using free⟩
  · rintro ⟨shape, free⟩
    refine ⟨_, shape, _, rfl, text.toList, rfl, ?_⟩
    rw [if_neg (by simpa using free), String.ofList_toList]

/-- The key of a part stands below the key of the document. -/
theorem isBelow_extend (key : String) (path : Path) : isBelow key (path.extend key) = true :=
  isBelow_iff.2 ⟨path.added, path.toList_extend key,
    by simpa using path.beginsStep_append BeginsStep.nil⟩

/-- Whatever looks like an item of a part stands below the key of the document. -/
theorem isBelow_of_index? {key other text : String} {path : Path}
    (found : index? (path.extend key) other = some text) : isBelow key other = true := by
  have shape := (index?_eq_some_iff.1 found).1
  rw [Path.toList_extend, List.append_assoc] at shape
  exact isBelow_iff.2 ⟨_, shape, path.beginsStep_append (by simp [BeginsStep])⟩

/-- The keys that look like an item of a part are the keys of its items. -/
theorem index?_extend_iff {key text : String} {path other : Path}
    (plain : ∀ step ∈ path, step.IsPlain) (otherPlain : ∀ step ∈ other, step.IsPlain) :
    index? (path.extend key) (other.extend key) = some text ↔
      ∃ index, other = path ++ [.item index] ∧ text = toString index := by
  rw [index?_eq_some_iff]
  constructor
  · rintro ⟨shape, _, closed⟩
    have texts : other.added = path.added ++ '[' :: (text.toList ++ [']']) := by
      simpa [Path.toList_extend] using shape
    obtain ⟨tail, rfl, last⟩ :=
      Path.eq_append_of_added plain otherPlain (by simp [BeginsStep]) texts
    cases tail with
    | nil => simp [Path.added] at last
    | cons step tail =>
        cases step with
        | field name => simp [Path.added] at last
        | item index =>
            have cut : (toString index).toList ++ ']' :: Path.added tail =
                text.toList ++ ']' :: [] := by simpa [Path.added] using last
            obtain ⟨digits, _, none⟩ :=
              (List.append_cons_inj_of_notMem closed List.not_mem_nil).1 cut.symm
            rw [Path.added_eq_nil_iff.1 none.symm]
            exact ⟨index, rfl, String.toList_inj.1 digits⟩
  · rintro ⟨index, rfl, rfl⟩
    refine ⟨?_, ?_, ?_⟩
    · simp [Path.toList_extend, Path.added]
    · exact fun member => Digits.not_isMark_of_mem_toString member (by simp [IsMark])
    · exact fun member => Digits.not_isMark_of_mem_toString member (by simp [IsMark])

end PropertyKey
end BeanContainer
