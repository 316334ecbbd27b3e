import BeanContainer.Proofs.Literal
import BeanContainer.Proofs.Property.Sequences
import BeanContainer.Property.Conversion

/-!
# Raw values as numbers and lists

A raw value is read as a whole number exactly if it spells one between blanks, and the number
lies in the range of the type.  However many digits it has, no number is ever taken for
another one.  A list of raw values is read member by member: it is read if each member is, and
otherwise it fails as the first member does that is not.
-/

namespace BeanContainer

namespace ScalarType

/-- A raw value is converted to what it is read as. -/
theorem convert_eq_ok_iff {type : ScalarType} {key raw : String} {content : type.Denote} :
    type.convert key raw = .ok content ↔ type.read? raw = some content := by
  rw [convert]
  cases type.read? raw with
  | none => simp
  | some found => simp

/-- A raw value that is not read is reported as it stands. -/
theorem convert_eq_error_iff {type : ScalarType} {key raw : String} {error : PropertyError} :
    type.convert key raw = .error error ↔
      type.read? raw = none ∧ error = .conversion key raw type.name := by
  rw [convert]
  cases type.read? raw with
  | none => simp [eq_comm]
  | some found => simp

end ScalarType

namespace PropertyType

/-- A raw value is converted to the number of the type that it spells. -/
theorem convert_integer_eq_ok_iff {type : IntegerType} {key raw : String} {value : type.Range} :
    (scalar (.integer type)).convert key [raw] = .ok value ↔
      type.SpellsPadded raw value.val := by
  rw [← IntegerType.read?_trim_eq_some_iff]
  exact ScalarType.convert_eq_ok_iff

/-- A raw value is rejected if it spells no number of the type. -/
theorem convert_integer_eq_error_iff {type : IntegerType} {key raw : String}
    {error : PropertyError} :
    (scalar (.integer type)).convert key [raw] = .error error ↔
      error = .conversion key raw type.name ∧ ∀ number, type.SpellsPadded raw number →
        ¬ (type.lowest ≤ number ∧ number ≤ type.highest) := by
  rw [← IntegerType.read?_trim_eq_none_iff, and_comm]
  exact ScalarType.convert_eq_error_iff

/-- Whole numbers are read exactly.  A raw value is converted to an integer type if and only if
it spells, between blanks, a number in the range of the type, and to that number; otherwise the
raw value is reported as it stands.  Lists agree with scalars: the members of a list are the
conversions of its raw values, each on its own and in their order, and if one of them fails, the
list fails with the error of the first that does. -/
theorem convert_exactly :
    (∀ (type : IntegerType) (key raw : String),
      (∀ value : type.Range, (scalar (.integer type)).convert key [raw] = .ok value ↔
        type.SpellsPadded raw value.val) ∧
      ∀ error, (scalar (.integer type)).convert key [raw] = .error error ↔
        error = .conversion key raw type.name ∧ ∀ number, type.SpellsPadded raw number →
          ¬ (type.lowest ≤ number ∧ number ≤ type.highest)) ∧
    ∀ (type : ScalarType) (key : String) (raws : List String),
      (∀ contents : List type.Denote, (list type).convert key raws = .ok contents ↔
        List.Forall₂ (fun raw content => (scalar type).convert key [raw] = .ok content)
          raws contents) ∧
      ∀ error, (list type).convert key raws = .error error ↔
        ∃ before raw after, raws = before ++ raw :: after ∧
          (∀ earlier ∈ before, ∃ content, (scalar type).convert key [earlier] = .ok content) ∧
          (scalar type).convert key [raw] = .error error := by
  constructor
  · intro type key raw
    constructor
    · intro value
      exact convert_integer_eq_ok_iff
    · intro error
      exact convert_integer_eq_error_iff
  · intro type key raws
    constructor
    · intro contents
      exact mapM_eq_ok_iff
    · intro error
      exact mapM_eq_error_iff

end PropertyType
end BeanContainer
