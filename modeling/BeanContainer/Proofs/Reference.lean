import BeanContainer.Reference
import Mathlib.Data.List.Infix

/-!
# Tags and the references they print

Reading a tag and printing a reference undo each other.  A tag is read as a reference
exactly if it is the printed form of the reference, and the reference is one whose name
ends where the tag says: a property's name without `:=`, a bean's name without a comma.
So nothing of a tag is lost, whatever delimiters stand in a name or in a default, and a
tag that is not printed from such a reference is refused.
-/

namespace BeanContainer

/-! ## What stands between the marks of a tag -/

/-- The name, and the default if there is one. -/
def PropertyReference.expression (reference : PropertyReference) : List Char :=
  match reference.default with
  | none => reference.name.toList
  | some default => reference.name.toList ++ Reference.defaultMark ++ default.toList

/-- The name, and the qualifier if the bean may be missing. -/
def BeanReference.expression (reference : BeanReference) : List Char :=
  match reference.isOptional with
  | false => reference.name.toList
  | true => reference.name.toList ++ Reference.qualifierMark ++ Reference.optionalWord

namespace Reference

theorem toList_print_property (reference : PropertyReference) :
    (print (.property reference)).toList =
      propertyWord ++ (opening ++ (reference.expression ++ closing)) := by
  have front : "value:$\x7b".toList = propertyWord ++ opening := by decide
  obtain ⟨name, default⟩ := reference
  cases default with
  | none =>
      simp only [print, String.toList_append, front, PropertyReference.expression,
        List.append_assoc]
      rfl
  | some default =>
      simp only [print, String.toList_append, front, PropertyReference.expression,
        List.append_assoc]
      rfl

theorem toList_print_bean (reference : BeanReference) :
    (print (.bean reference)).toList = beanWord ++ reference.expression := by
  have back : ",optional".toList = qualifierMark ++ optionalWord := by decide
  obtain ⟨name, isOptional⟩ := reference
  cases isOptional with
  | false =>
      simp only [print, String.toList_append, BeanReference.expression]
      rfl
  | true =>
      simp only [print, String.toList_append, back, BeanReference.expression, List.append_assoc]
      rfl

/-- References that can be told from their tags: the name ends at the first mark behind it,
and there is more to print than the marks. -/
def IsLegible : Reference → Prop
  | .property reference =>
      ¬ ":=".toList <:+: reference.name.toList ∧ (reference.name ≠ "" ∨ reference.default ≠ none)
  | .bean reference =>
      ',' ∉ reference.name.toList ∧ (reference.name ≠ "" ∨ reference.isOptional = true)

instance : DecidablePred IsLegible
  | .property _ => inferInstanceAs (Decidable (_ ∧ _))
  | .bean _ => inferInstanceAs (Decidable (_ ∧ _))

/-! ## Property references -/

section Property

variable {content expression : List Char} {reference : PropertyReference}

theorem IsLegible.property_ne_nil (legible : (property reference).IsLegible) :
    reference.expression ≠ [] := by
  obtain ⟨name, default⟩ := reference
  cases default with
  | none => simpa [IsLegible, PropertyReference.expression] using legible.2
  | some default => simp [PropertyReference.expression, defaultMark]

/-- The first mark in what a legible reference prints ends the name. -/
theorem IsLegible.cut?_property (legible : (property reference).IsLegible) :
    Text.cut? defaultMark reference.expression =
      reference.default.map fun default => (reference.name.toList, default.toList) := by
  obtain ⟨name, default⟩ := reference
  cases default with
  | none => exact Text.cut?_eq_none_iff_not_infix.2 legible.1
  | some default =>
      exact (Text.cut?_eq_some_iff_of_nodup (by decide) (by decide)).2 ⟨rfl, legible.1⟩

/-- What stands between the marks of a property reference. -/
theorem unmark_eq_some_iff :
    (Text.dropFront? opening content).bind (Text.dropBack? closing) = some expression ↔
      content = opening ++ (expression ++ closing) := by
  simp only [Option.bind_eq_some_iff, Text.dropFront?_eq_some_iff, Text.dropBack?_eq_some_iff]
  constructor
  · intro found
    obtain ⟨_, shape, rfl⟩ := found
    exact shape
  · intro shape
    exact ⟨_, shape, rfl⟩

/-- Whatever is read as a property reference is printed from it. -/
theorem printed_of_parseProperty (read : parseProperty content = .ok reference) :
    (property reference).IsLegible ∧ content = opening ++ (reference.expression ++ closing) := by
  unfold parseProperty at read
  split at read
  next => cases read
  next => cases read
  next expression nonempty marked =>
    rw [unmark_eq_some_iff] at marked
    split at read
    next name default cut =>
      cases read
      obtain ⟨shape, absent⟩ := (Text.cut?_eq_some_iff_of_nodup (by decide) (by decide)).1 cut
      rw [← String.toList_ofList (l := name)] at absent
      constructor
      · exact ⟨absent, .inr (Option.some_ne_none _)⟩
      · simpa [PropertyReference.expression, shape] using marked
    next cut =>
      cases read
      have absent := Text.cut?_eq_none_iff_not_infix.1 cut
      rw [← String.toList_ofList (l := expression)] at absent
      constructor
      · exact ⟨absent, .inl (by simpa using nonempty)⟩
      · simpa [PropertyReference.expression] using marked

theorem parseProperty_printed (legible : (property reference).IsLegible) :
    parseProperty (opening ++ (reference.expression ++ closing)) = .ok reference := by
  unfold parseProperty
  rw [unmark_eq_some_iff.2 rfl]
  split
  next absent => cases absent
  next empty => exact absurd (Option.some.inj empty) legible.property_ne_nil
  next expression _ same =>
    cases same
    rw [legible.cut?_property]
    obtain ⟨name, default⟩ := reference
    cases default with
    | none => simp [PropertyReference.expression]
    | some default => simp

end Property

/-! ## Bean references -/

section Bean

variable {content : List Char} {reference : BeanReference}

theorem IsLegible.bean_ne_nil (legible : (bean reference).IsLegible) :
    reference.expression ≠ [] := by
  obtain ⟨name, isOptional⟩ := reference
  cases isOptional with
  | false => simpa [IsLegible, BeanReference.expression] using legible.2
  | true => simp [BeanReference.expression, qualifierMark]

theorem qualifierMark_infix_iff {text : List Char} : qualifierMark <:+: text ↔ ',' ∈ text :=
  List.singleton_infix_iff ',' text

/-- The first comma in what a legible reference prints ends the name. -/
theorem IsLegible.cut?_bean (legible : (bean reference).IsLegible) :
    Text.cut? qualifierMark reference.expression =
      if reference.isOptional then some (reference.name.toList, optionalWord) else none := by
  have absent : ¬ qualifierMark <:+: reference.name.toList := by
    rw [qualifierMark_infix_iff]
    exact legible.1
  obtain ⟨name, isOptional⟩ := reference
  cases isOptional with
  | false => exact Text.cut?_eq_none_iff_not_infix.2 absent
  | true => exact (Text.cut?_eq_some_iff_of_nodup (by decide) (by decide)).2 ⟨rfl, absent⟩

/-- Whatever is read as a bean reference is printed from it. -/
theorem printed_of_parseBean (read : parseBean content = .ok reference) :
    (bean reference).IsLegible ∧ content = reference.expression := by
  unfold parseBean at read
  split at read
  next => cases read
  next nonempty =>
    split at read
    next cut =>
      cases read
      rw [Text.cut?_eq_none_iff_not_infix, qualifierMark_infix_iff] at cut
      constructor
      · exact ⟨by simpa using cut, .inl (by simpa using nonempty)⟩
      · simp [BeanReference.expression]
    next name qualifier cut =>
      obtain ⟨shape, absent⟩ := (Text.cut?_eq_some_iff_of_nodup (by decide) (by decide)).1 cut
      rw [qualifierMark_infix_iff] at absent
      split at read
      next isOptional =>
        cases read
        constructor
        · exact ⟨by simpa using absent, .inr rfl⟩
        · simpa [BeanReference.expression, isOptional] using shape
      next => cases read

theorem parseBean_printed (legible : (bean reference).IsLegible) :
    parseBean reference.expression = .ok reference := by
  rw [parseBean, if_neg legible.bean_ne_nil, legible.cut?_bean]
  obtain ⟨name, isOptional⟩ := reference
  cases isOptional with
  | false => simp [BeanReference.expression]
  | true => simp

end Bean

/-! ## Tags -/

/-- Neither kind of reference prints the empty tag. -/
theorem toList_print_ne_nil (reference : Reference) : reference.print.toList ≠ [] := by
  cases reference with
  | property reference =>
      rw [toList_print_property]
      exact List.append_ne_nil_of_left_ne_nil (by decide) _
  | bean reference =>
      rw [toList_print_bean]
      exact List.append_ne_nil_of_left_ne_nil (by decide) _

/-- The words of the two kinds of references differ. -/
theorem dropFront?_propertyWord_bean (text : List Char) :
    Text.dropFront? propertyWord (beanWord ++ text) = none := rfl

/-- A reference of some kind is read exactly if what follows the word is. -/
theorem map_eq_ok_iff {α : Type} {read : Except Defect α} {kind : α → Reference}
    {result : Option Reference} :
    (read.map fun found => some (kind found)) = .ok result ↔
      ∃ found, read = .ok found ∧ some (kind found) = result := by
  cases read <;> simp [Except.map]

/-- Whatever is read as a reference is printed from it. -/
theorem printed_of_parse {tag : String} {reference : Reference}
    (read : parse tag = .ok (some reference)) : reference.IsLegible ∧ tag = reference.print := by
  simp only [parse] at read
  split at read
  next => cases read
  next =>
    split at read
    next content atWord =>
      rw [Text.dropFront?_eq_some_iff] at atWord
      obtain ⟨property, found, same⟩ := map_eq_ok_iff.1 read
      cases same
      obtain ⟨legible, shape⟩ := printed_of_parseProperty found
      refine ⟨legible, ?_⟩
      rw [← String.toList_inj, toList_print_property, ← shape, atWord]
    next =>
      split at read
      next content atWord =>
        rw [Text.dropFront?_eq_some_iff] at atWord
        obtain ⟨bean, found, same⟩ := map_eq_ok_iff.1 read
        cases same
        obtain ⟨legible, shape⟩ := printed_of_parseBean found
        refine ⟨legible, ?_⟩
        rw [← String.toList_inj, toList_print_bean, ← shape, atWord]
      next => cases read

theorem parse_print {reference : Reference} (legible : reference.IsLegible) :
    parse reference.print = .ok (some reference) := by
  simp only [parse, if_neg reference.toList_print_ne_nil]
  cases reference with
  | property reference =>
      simp only [toList_print_property, Text.dropFront?_append, parseProperty_printed legible]
      rfl
  | bean reference =>
      simp only [toList_print_bean, dropFront?_propertyWord_bean, Text.dropFront?_append,
        parseBean_printed legible]
      rfl

/-- Nothing is referred to by the empty tag, and by no other. -/
theorem parse_eq_none_iff {tag : String} : parse tag = .ok none ↔ tag = "" := by
  constructor
  · intro read
    simp only [parse] at read
    split at read
    next empty => simpa using empty
    next =>
      split at read
      next =>
        obtain ⟨_, _, same⟩ := map_eq_ok_iff.1 read
        cases same
      next =>
        split at read
        next =>
          obtain ⟨_, _, same⟩ := map_eq_ok_iff.1 read
          cases same
        next => cases read
  · intro empty
    subst empty
    rfl

/-- A tag is read as a reference exactly if it is the printed form of the reference and the
reference is legible.  The empty tag refers to nothing, and a tag that is neither empty nor
printed from a legible reference is refused as invalid. -/
theorem parse_accepts_printed (tag : String) :
    (∀ reference, parse tag = .ok (some reference) ↔
      reference.IsLegible ∧ tag = reference.print) ∧
    (parse tag = .ok none ↔ tag = "") ∧
    ((∃ defect, (parse tag).mapError BeanError.invalid = .error (.invalid defect)) ↔
      tag ≠ "" ∧ ¬ ∃ reference : Reference, reference.IsLegible ∧ tag = reference.print) := by
  have reads : ∀ reference, parse tag = .ok (some reference) ↔
      reference.IsLegible ∧ tag = reference.print := by
    intro reference
    constructor
    · exact printed_of_parse
    · intro printed
      rw [printed.2]
      exact parse_print printed.1
  refine ⟨reads, parse_eq_none_iff, ?_⟩
  -- Whether the tag is empty or printed can be seen from what is read.
  rw [Ne, ← parse_eq_none_iff]
  simp only [← reads]
  cases parse tag with
  | error defect => simp [Except.mapError]
  | ok found => cases found <;> simp [Except.mapError]

/-- A name may end in the first character of the mark, and a default may hold every mark. -/
example : parse "value:$\x7ba::=b:=\x7d\x7d" = .ok (some (.property ⟨"a:", some "b:=\x7d"⟩)) := rfl

/-- A name with the mark in it is read as a shorter name and a default. -/
example : ¬ (property ⟨"a:=b", none⟩).IsLegible ∧
    parse (property ⟨"a:=b", none⟩).print = .ok (some (.property ⟨"a", some "b"⟩)) :=
  ⟨by decide, rfl⟩

end Reference
end BeanContainer
