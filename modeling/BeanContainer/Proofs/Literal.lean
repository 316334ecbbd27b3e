import BeanContainer.Number.Integer
import BeanContainer.Text.Blank

/-!
# Integer literals

A literal is an optional sign followed by decimal digits, and it spells a number.  Reading
a text as an integer type succeeds exactly if the text is a literal and the number that it
spells lies in the range of the type, and then gives this number.  Blanks around a literal are
no part of it and are trimmed before it is read.
-/

namespace BeanContainer

namespace Digits

/-- One or more decimal digits. -/
def IsNumeral (text : List Char) : Prop := text ≠ [] ∧ ∀ digit ∈ text, digit.isDigit = true

instance : DecidablePred IsNumeral := fun _ => inferInstanceAs (Decidable (_ ∧ _))

theorem read?_eq_some_iff {text : List Char} {number : Nat} :
    read? text = some number ↔ IsNumeral text ∧ value text = number := by
  simp [read?, IsNumeral]

/-- No digit is the sign of a literal. -/
theorem IsNumeral.head_ne {sign : Char} {digits : List Char} (notDigit : sign.isDigit = false) :
    ¬ IsNumeral (sign :: digits) := by
  intro numeral
  have isDigit := numeral.2 sign List.mem_cons_self
  rw [notDigit] at isDigit
  cases isDigit

end Digits

namespace IntegerType

/-- The text is a literal that spells the number.  A minus sign is for the signed types only,
also in front of zero. -/
inductive Spells (type : IntegerType) : List Char → Int → Prop
  | unsigned {digits : List Char} (numeral : Digits.IsNumeral digits) :
      Spells type digits (Digits.value digits)
  | plus {digits : List Char} (numeral : Digits.IsNumeral digits) :
      Spells type ('+' :: digits) (Digits.value digits)
  | minus {digits : List Char} (numeral : Digits.IsNumeral digits)
      (signed : type.isSigned = true) : Spells type ('-' :: digits) (-Digits.value digits)

/-- A text spells one number only. -/
theorem Spells.unique {type : IntegerType} {text : List Char} {number other : Int}
    (spells : type.Spells text number) (otherwise : type.Spells text other) : number = other := by
  cases spells with
  | unsigned numeral =>
      cases otherwise with
      | unsigned => rfl
      | plus => exact absurd numeral (Digits.IsNumeral.head_ne (by decide))
      | minus => exact absurd numeral (Digits.IsNumeral.head_ne (by decide))
  | plus =>
      cases otherwise with
      | unsigned numeral => exact absurd numeral (Digits.IsNumeral.head_ne (by decide))
      | plus => rfl
  | minus =>
      cases otherwise with
      | unsigned numeral => exact absurd numeral (Digits.IsNumeral.head_ne (by decide))
      | minus => rfl

/-- Reading digits and fitting the number into the range. -/
theorem bind_ofInt?_eq_some_iff {type : IntegerType} {digits : List Char} {signed : Nat → Int}
    {value : type.Range} :
    ((Digits.read? digits).bind fun number => type.ofInt? (signed number)) = some value ↔
      Digits.IsNumeral digits ∧ signed (Digits.value digits) = value.val := by
  simp only [Option.bind_eq_some_iff, Digits.read?_eq_some_iff, ofInt?_eq_some_iff]
  constructor
  · rintro ⟨_, ⟨numeral, rfl⟩, isValue⟩
    exact ⟨numeral, isValue.symm⟩
  · rintro ⟨numeral, isValue⟩
    exact ⟨_, ⟨numeral, rfl⟩, isValue.symm⟩

/-- A text is read as a value of the type exactly if it spells this value. -/
theorem read?_eq_some_iff {type : IntegerType} {text : List Char} {value : type.Range} :
    type.read? text = some value ↔ type.Spells text value.val := by
  constructor
  · intro found
    unfold read? at found
    split at found
    next digits =>
      obtain ⟨numeral, isValue⟩ := bind_ofInt?_eq_some_iff.1 found
      rw [← isValue]
      exact .plus numeral
    next digits =>
      split at found
      next signed =>
        obtain ⟨numeral, isValue⟩ := bind_ofInt?_eq_some_iff.1 found
        rw [← isValue]
        exact .minus numeral signed
      next => cases found
    next =>
      obtain ⟨numeral, isValue⟩ := bind_ofInt?_eq_some_iff.1 found
      rw [← isValue]
      exact .unsigned numeral
  · intro spells
    generalize isNumber : value.val = number at spells
    unfold read?
    cases spells with
    | plus numeral => exact bind_ofInt?_eq_some_iff.2 ⟨numeral, isNumber.symm⟩
    | minus numeral signed =>
        simp only [signed, if_true]
        exact bind_ofInt?_eq_some_iff.2 ⟨numeral, isNumber.symm⟩
    | unsigned numeral =>
        -- A numeral starts with a digit, so it is not mistaken for a signed literal.
        split
        next => exact absurd numeral (Digits.IsNumeral.head_ne (by decide))
        next => exact absurd numeral (Digits.IsNumeral.head_ne (by decide))
        next => exact bind_ofInt?_eq_some_iff.2 ⟨numeral, isNumber.symm⟩

/-- The text is a literal for a number in the range of the type. -/
def IsLiteral (type : IntegerType) (text : String) : Prop :=
  ∃ number : type.Range, type.Spells text.toList number.val

theorem isLiteral_iff {type : IntegerType} {text : String} :
    type.IsLiteral text ↔ (type.read? text.toList).isSome = true := by
  simp only [IsLiteral, ← read?_eq_some_iff, Option.isSome_iff_exists]

instance (type : IntegerType) : DecidablePred type.IsLiteral :=
  fun _ => decidable_of_iff _ isLiteral_iff.symm

end IntegerType

/-! ## Blanks around a literal -/

namespace Text

/-- The text is the core with blanks around it. -/
def Pads (core text : List Char) : Prop :=
  ∃ front back, text = front ++ core ++ back ∧ (∀ c ∈ front, isBlank c = true) ∧
    ∀ c ∈ back, isBlank c = true

/-- What is trimmed from a text is blank. -/
theorem pads_trim (text : List Char) : Pads (trim text) text := by
  have ends : ∀ list : List Char, ∀ c ∈ list.takeWhile isBlank, isBlank c = true :=
    fun list => List.all_eq_true.1 List.all_takeWhile
  have split : ∀ list : List Char, list.takeWhile isBlank ++ list.dropWhile isBlank = list :=
    fun list => List.takeWhile_append_dropWhile
  have tail : text.dropWhile isBlank =
      trim text ++ ((text.dropWhile isBlank).reverse.takeWhile isBlank).reverse := by
    rw [trim, ← List.reverse_append, split, List.reverse_reverse]
  refine ⟨text.takeWhile isBlank, ((text.dropWhile isBlank).reverse.takeWhile isBlank).reverse,
    ?_, ends text, ?_⟩
  · rw [List.append_assoc, ← tail, split]
  · intro c member
    exact ends _ c (List.mem_reverse.1 member)

/-- Blanks around a core without blanks are trimmed. -/
theorem Pads.trim_eq {core text : List Char} (pads : Pads core text)
    (free : ∀ c ∈ core, isBlank c = false) : trim text = core := by
  obtain ⟨front, back, rfl, frontBlank, backBlank⟩ := pads
  have drops : ∀ blanks list : List Char, (∀ c ∈ blanks, isBlank c = true) →
      (blanks ++ list).dropWhile isBlank = list.dropWhile isBlank :=
    fun blanks list areBlank => List.dropWhile_append_of_pos areBlank
  have stays : ∀ list later : List Char, (∀ c ∈ list, isBlank c = false) → list ≠ [] →
      (list ++ later).dropWhile isBlank = list ++ later := by
    intro list later free nonempty
    cases list with
    | nil => exact absurd rfl nonempty
    | cons first rest => simp [free first List.mem_cons_self]
  have reversedBlank : ∀ c ∈ back.reverse, isBlank c = true :=
    fun c member => backBlank c (List.mem_reverse.1 member)
  have reversedFree : ∀ c ∈ core.reverse, isBlank c = false :=
    fun c member => free c (List.mem_reverse.1 member)
  rw [trim, List.append_assoc, drops front _ frontBlank]
  by_cases empty : core = []
  · have nothing := drops back [] backBlank
    rw [List.append_nil] at nothing
    rw [empty, List.nil_append, nothing]
    rfl
  · have kept := stays core.reverse [] reversedFree (by simpa using empty)
    rw [List.append_nil] at kept
    rw [stays core back free empty, List.reverse_append, drops _ _ reversedBlank, kept,
      List.reverse_reverse]

/-- A text without blanks is trimmed to itself. -/
theorem trim_eq_self {text : List Char} (free : ∀ c ∈ text, isBlank c = false) :
    trim text = text := by
  apply Pads.trim_eq _ free
  exact ⟨[], [], by simp, by simp, by simp⟩

theorem not_isBlank_of_isDigit {c : Char} (digit : c.isDigit = true) : isBlank c = false := by
  have range : 48 ≤ c.toNat ∧ c.toNat ≤ 57 := by
    simpa [Char.isDigit, UInt32.le_iff_toNat_le] using digit
  have apart : ∀ blank ∈ blankRanges, blank.2 < 48 ∨ 57 < blank.1 := by decide
  rw [isBlank, List.any_eq_false]
  intro blank member
  have outside := apart blank member
  simp only [Bool.and_eq_true, decide_eq_true_eq]
  omega

end Text

namespace IntegerType

/-- No character of a literal is blank. -/
theorem Spells.not_isBlank {type : IntegerType} {text : List Char} {number : Int}
    (spells : type.Spells text number) : ∀ c ∈ text, Text.isBlank c = false := by
  have digits : ∀ {digits : List Char}, Digits.IsNumeral digits →
      ∀ c ∈ digits, Text.isBlank c = false :=
    fun numeral c member => Text.not_isBlank_of_isDigit (numeral.2 c member)
  cases spells with
  | unsigned numeral => exact digits numeral
  | plus numeral => exact List.forall_mem_cons.2 ⟨by decide, digits numeral⟩
  | minus numeral _ => exact List.forall_mem_cons.2 ⟨by decide, digits numeral⟩

/-- Between blanks, if there are any, the raw value is a literal that spells the number. -/
def SpellsPadded (type : IntegerType) (raw : String) (number : Int) : Prop :=
  ∃ literal, Text.Pads literal raw.toList ∧ type.Spells literal number

/-- A trimmed raw value is read as a value of the type exactly if it spells this value. -/
theorem read?_trim_eq_some_iff {type : IntegerType} {raw : String} {value : type.Range} :
    type.read? (Text.trim raw.toList) = some value ↔ type.SpellsPadded raw value.val := by
  rw [read?_eq_some_iff]
  constructor
  · intro spells
    exact ⟨_, Text.pads_trim raw.toList, spells⟩
  · intro padded
    obtain ⟨literal, pads, spells⟩ := padded
    rw [pads.trim_eq spells.not_isBlank]
    exact spells

/-- A trimmed raw value is not read exactly if no number of the type is spelled by it. -/
theorem read?_trim_eq_none_iff {type : IntegerType} {raw : String} :
    type.read? (Text.trim raw.toList) = none ↔ ∀ number, type.SpellsPadded raw number →
      ¬ (type.lowest ≤ number ∧ number ≤ type.highest) := by
  rw [Option.eq_none_iff_forall_ne_some]
  constructor
  · intro unread number padded inside
    have read := (@read?_trim_eq_some_iff type raw ⟨number, inside⟩).2 padded
    exact unread _ read
  · intro outside value read
    exact outside value.val (read?_trim_eq_some_iff.1 read) value.property

end IntegerType
end BeanContainer
