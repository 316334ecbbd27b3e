/-!
# Cutting text at marks

Tags of fields, property keys and type names are all read by taking a fixed front
or back off a text, or by cutting it where a mark stands. The text is a list of
characters here, so that each cut can be stated as an equation between appended
lists: a cut at the first mark loses nothing, and no earlier cut exists.
-/

namespace BeanContainer.Text

/-- What is left once `front` is taken off the start of the text, provided the
text starts with it. -/
def dropFront? (front text : List Char) : Option (List Char) :=
  match front, text with
  | [], text => some text
  | _ :: _, [] => none
  | f :: front, c :: text => if f = c then dropFront? front text else none

@[simp] theorem dropFront?_nil (text : List Char) : dropFront? [] text = some text := by
  cases text <;> rfl

theorem dropFront?_eq_some_iff {front text rest : List Char} :
    dropFront? front text = some rest ↔ text = front ++ rest := by
  induction front generalizing text with
  | nil => simp [eq_comm]
  | cons f front ih =>
      cases text with
      | nil => simp [dropFront?]
      | cons c text =>
          by_cases same : f = c
          · subst same
            simp [dropFront?, ih]
          · have other : ¬ c = f := fun equal => same equal.symm
            simp [dropFront?, same, other]

@[simp] theorem dropFront?_append (front rest : List Char) :
    dropFront? front (front ++ rest) = some rest :=
  dropFront?_eq_some_iff.2 rfl

/-- What is left once `back` is taken off the end of the text, provided the text
ends with it. -/
def dropBack? (back text : List Char) : Option (List Char) :=
  (dropFront? back.reverse text.reverse).map List.reverse

theorem dropBack?_eq_some_iff {back text rest : List Char} :
    dropBack? back text = some rest ↔ text = rest ++ back := by
  simp only [dropBack?, Option.map_eq_some_iff, dropFront?_eq_some_iff]
  constructor
  · rintro ⟨reversed, equal, rfl⟩
    simpa using congrArg List.reverse equal
  · rintro rfl
    exact ⟨rest.reverse, by simp, by simp⟩

/-- The parts before and after the first place where the mark stands. -/
def cut? (mark : List Char) : List Char → Option (List Char × List Char)
  | [] => (dropFront? mark []).map fun rest => ([], rest)
  | c :: text =>
      match dropFront? mark (c :: text) with
      | some rest => some ([], rest)
      | none => (cut? mark text).map fun (before, after) => (c :: before, after)

/-- Cutting loses nothing but the mark. -/
theorem eq_append_of_cut? {mark text before after : List Char}
    (found : cut? mark text = some (before, after)) : text = before ++ mark ++ after := by
  induction text generalizing before with
  | nil =>
      obtain ⟨rest, atStart, equal⟩ := Option.map_eq_some_iff.1 found
      cases equal
      simpa using dropFront?_eq_some_iff.1 atStart
  | cons c text ih =>
      rw [cut?] at found
      split at found
      next rest atStart =>
        cases found
        simpa using dropFront?_eq_some_iff.1 atStart
      next =>
        obtain ⟨⟨front, back⟩, later, equal⟩ := Option.map_eq_some_iff.1 found
        cases equal
        simp [ih later]

/-- No earlier cut exists. -/
theorem length_le_of_cut? {mark text before after front back : List Char}
    (found : cut? mark text = some (before, after)) (other : text = front ++ mark ++ back) :
    before.length ≤ front.length := by
  induction text generalizing before front with
  | nil =>
      obtain ⟨rest, atStart, equal⟩ := Option.map_eq_some_iff.1 found
      cases equal
      exact Nat.zero_le _
  | cons c text ih =>
      rw [cut?] at found
      split at found
      next rest atStart =>
        cases found
        exact Nat.zero_le _
      next absent =>
        obtain ⟨⟨first, last⟩, later, equal⟩ := Option.map_eq_some_iff.1 found
        cases equal
        cases front with
        | nil => simp [other] at absent
        | cons f front =>
            obtain ⟨_, rest⟩ := List.cons.inj other
            exact Nat.succ_le_succ (ih later rest)

/-- A text is cut wherever the mark stands in it. -/
theorem cut?_eq_none_iff {mark text : List Char} :
    cut? mark text = none ↔ ∀ before after, text ≠ before ++ mark ++ after := by
  induction text with
  | nil =>
      cases mark with
      | nil => simp [cut?]
      | cons m mark => simp [cut?, dropFront?]
  | cons c text ih =>
      rw [cut?]
      split
      next rest atStart =>
        simp only [reduceCtorEq, false_iff]
        intro absent
        exact absent [] rest (by simpa using dropFront?_eq_some_iff.1 atStart)
      next absent =>
        rw [Option.map_eq_none_iff, ih]
        constructor
        · intro nowhere before after shape
          cases before with
          | nil => simp [shape] at absent
          | cons b before => exact nowhere before after (List.cons.inj shape).2
        · intro nowhere before after shape
          exact nowhere (c :: before) after (by simp [shape])

/-- A cut is the division of the text at the earliest place of the mark. -/
theorem cut?_eq_some_iff {mark text before after : List Char} :
    cut? mark text = some (before, after) ↔
      text = before ++ mark ++ after ∧
        ∀ front back, text = front ++ mark ++ back → before.length ≤ front.length := by
  constructor
  · intro found
    exact ⟨eq_append_of_cut? found, fun _ _ other => length_le_of_cut? found other⟩
  · rintro ⟨shape, earliest⟩
    cases found : cut? mark text with
    | none => exact absurd shape (cut?_eq_none_iff.1 found before after)
    | some parts =>
        obtain ⟨front, back⟩ := parts
        have division := eq_append_of_cut? found
        have sameLength := Nat.le_antisymm (length_le_of_cut? found shape)
          (earliest front back division)
        rw [List.append_assoc] at shape division
        obtain ⟨sameFront, sameRest⟩ := List.append_inj (division.symm.trans shape) sameLength
        rw [sameFront, List.append_cancel_left sameRest]

/-- A mark of different characters that does not stand in the front of a text begins nowhere in
that front, not even with its first characters. -/
theorem length_le_of_not_infix {mark before after front back : List Char} (distinct : mark.Nodup)
    (absent : ¬ mark <:+: before) (same : before ++ (mark ++ after) = front ++ (mark ++ back)) :
    before.length ≤ front.length := by
  rcases List.append_eq_append_iff.1 same with ⟨added, rfl, _⟩ | ⟨added, rfl, rest⟩
  · simp
  · cases added with
    | nil => simp
    | cons head added =>
        rcases List.append_eq_append_iff.1 rest with ⟨inner, whole, _⟩ | ⟨inner, rfl, rest⟩
        · exact absurd ⟨front, inner, by simp [whole]⟩ absent
        · cases inner with
          | nil => exact absurd ⟨front, [], by simp⟩ absent
          | cons first inner =>
              -- The mark would start with a character of its own middle.
              cases (List.cons.inj rest).1
              simp at distinct

/-- A mark of different characters cuts a text at the place in front of which it does not
stand. -/
theorem cut?_eq_some_iff_of_nodup {mark text before after : List Char} (distinct : mark.Nodup)
    (nonempty : mark ≠ []) :
    cut? mark text = some (before, after) ↔
      text = before ++ mark ++ after ∧ ¬ mark <:+: before := by
  rw [cut?_eq_some_iff]
  refine and_congr_right fun shape => ?_
  constructor
  · rintro earliest ⟨front, back, rfl⟩
    have bound := earliest front (back ++ mark ++ after) (by simp [shape])
    have positive := List.length_pos_iff.2 nonempty
    simp only [List.length_append] at bound
    omega
  · intro absent front back other
    rw [shape, List.append_assoc, List.append_assoc] at other
    exact length_le_of_not_infix distinct absent other

/-- A text that is cut nowhere is one in which the mark does not stand. -/
theorem cut?_eq_none_iff_not_infix {mark text : List Char} :
    cut? mark text = none ↔ ¬ mark <:+: text := by
  rw [cut?_eq_none_iff]
  constructor
  · rintro nowhere ⟨before, after, rfl⟩
    exact nowhere before after rfl
  · rintro absent before after rfl
    exact absent ⟨before, after, rfl⟩

/-- The part after the last place where the mark stands, or the whole text if
it stands nowhere. -/
def afterLast (mark text : List Char) : List Char :=
  match cut? mark.reverse text.reverse with
  | some (tail, _) => tail.reverse
  | none => text

/-- The part before the first place where the mark stands, or the whole text if
it stands nowhere. -/
def beforeFirst (mark text : List Char) : List Char :=
  match cut? mark text with
  | some (before, _) => before
  | none => text

/-! ## Cuts behind a front without the mark -/

section Front

variable {first last : Char} {mark front : List Char}

/-- No cut is made in the front of a text in which the mark's first character does not stand. -/
theorem cut?_append_of_not_mem (absent : first ∉ front) (text : List Char) :
    cut? (first :: mark) (front ++ text) =
      (cut? (first :: mark) text).map fun (before, after) => (front ++ before, after) := by
  induction front with
  | nil => simp
  | cons c front ih =>
      rw [List.mem_cons, not_or] at absent
      rw [List.cons_append, cut?, dropFront?, if_neg absent.1, ih absent.2]
      cases cut? (first :: mark) text <;> rfl

theorem cut?_mark_append (first : Char) (mark after : List Char) :
    cut? (first :: mark) (first :: mark ++ after) = some ([], after) := by
  rw [List.cons_append, cut?, ← List.cons_append, dropFront?_append]

theorem beforeFirst_append_of_not_mem (absent : first ∉ front) (text : List Char) :
    beforeFirst (first :: mark) (front ++ text) = front ++ beforeFirst (first :: mark) text := by
  rw [beforeFirst, cut?_append_of_not_mem absent, beforeFirst]
  cases cut? (first :: mark) text <;> rfl

theorem beforeFirst_mark_append (first : Char) (mark after : List Char) :
    beforeFirst (first :: mark) (first :: mark ++ after) = [] := by
  rw [beforeFirst, cut?_mark_append]

/-- From the end, a mark is met with its last character first. -/
theorem afterLast_append (mark before : List Char) {after : List Char} (absent : last ∉ after) :
    afterLast (mark ++ [last]) (before ++ (mark ++ [last]) ++ after) = after := by
  have backwards : (before ++ (mark ++ [last]) ++ after).reverse =
      after.reverse ++ (last :: mark.reverse ++ before.reverse) := by simp
  rw [afterLast, backwards, List.reverse_append, List.reverse_singleton, List.singleton_append,
    cut?_append_of_not_mem (by simpa using absent), cut?_mark_append]
  simp

theorem afterLast_of_not_mem (mark : List Char) {text : List Char} (absent : last ∉ text) :
    afterLast (mark ++ [last]) text = text := by
  have uncut : cut? (last :: mark.reverse) (text.reverse ++ []) = none := by
    rw [cut?_append_of_not_mem (by simpa using absent)]
    rfl
  rw [List.append_nil] at uncut
  rw [afterLast, List.reverse_append, List.reverse_singleton, List.singleton_append, uncut]

end Front

end BeanContainer.Text
