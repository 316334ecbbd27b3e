import BeanContainer.Registry

/-!
# Selecting one bean by its type

A place that takes a single bean of a type gets the only primary definition of the type,
or, where none is primary, the only definition of the type.  How many definitions there
are decides between them and the errors, which name that number.  So the selection depends
on what is registered and not on the order in which the definitions are visited.
-/

namespace BeanContainer

namespace Registry

/-- How many of the registered definitions pass the test. -/
def count (registry : Registry) (test : Definition → Bool) : Nat :=
  registry.visit.countP fun entry => test entry.2

/-- How many definitions can be handed out as the type. -/
def countOf (registry : Registry) (element : TypeName) : Nat :=
  registry.count fun definition => definition.isAssignableTo element

/-- How many primary definitions can be handed out as the type. -/
def countPrimary (registry : Registry) (element : TypeName) : Nat :=
  registry.count fun definition => definition.isPrimary && definition.isAssignableTo element

/-- What is to be selected for a place that takes one bean of the type. -/
inductive Selects (registry : Registry) (element : TypeName) (field type : String)
    (isOptional : Bool) : Except BeanError (Option String) → Prop
  | primary {name : String} {definition : Definition}
      (registered : registry.find? name = some definition)
      (isPrimary : definition.isPrimary = true)
      (assignable : definition.isAssignableTo element = true)
      (only : registry.countPrimary element = 1) :
      Selects registry element field type isOptional (.ok (some name))
  | severalPrimary (several : 1 < registry.countPrimary element) :
      Selects registry element field type isOptional
        (.error (.ambiguousPrimary (registry.countPrimary element) field type))
  | single {name : String} {definition : Definition}
      (noPrimary : registry.countPrimary element = 0)
      (registered : registry.find? name = some definition)
      (assignable : definition.isAssignableTo element = true)
      (only : registry.countOf element = 1) :
      Selects registry element field type isOptional (.ok (some name))
  | several (noPrimary : registry.countPrimary element = 0)
      (several : 1 < registry.countOf element) :
      Selects registry element field type isOptional
        (.error (.ambiguousCandidates (registry.countOf element) field type))
  | tolerated (noCandidate : registry.countOf element = 0) (optional : isOptional = true) :
      Selects registry element field type isOptional (.ok none)
  | missing (noCandidate : registry.countOf element = 0) (required : isOptional = false) :
      Selects registry element field type isOptional (.error (.noCandidate field type))

/-- Without definitions of a type there are no primary ones. -/
theorem countPrimary_eq_zero {registry : Registry} {element : TypeName}
    (noCandidate : registry.countOf element = 0) : registry.countPrimary element = 0 := by
  have fewer : registry.countPrimary element ≤ registry.countOf element := by
    apply List.countP_mono_left
    simp
  exact Nat.le_zero.1 (noCandidate ▸ fewer)

/-- Something is registered that is counted. -/
theorem exists_of_count_pos {registry : Registry} {test : Definition → Bool}
    (positive : 0 < registry.count test) :
    ∃ name definition, registry.find? name = some definition ∧ test definition = true := by
  obtain ⟨⟨name, definition⟩, member, passes⟩ := List.countP_pos_iff.1 positive
  exact ⟨name, definition, mem_visit_iff.1 member, passes⟩

/-- There is always something to select, or an error to report. -/
theorem exists_selects (registry : Registry) (element : TypeName) (field type : String)
    (isOptional : Bool) : ∃ result, registry.Selects element field type isOptional result := by
  rcases Nat.lt_trichotomy (registry.countPrimary element) 1 with none | only | several
  · have noPrimary : registry.countPrimary element = 0 := Nat.lt_one_iff.1 none
    rcases Nat.lt_trichotomy (registry.countOf element) 1 with none | only | several
    · have noCandidate : registry.countOf element = 0 := Nat.lt_one_iff.1 none
      cases optional : isOptional with
      | true => exact ⟨_, .tolerated noCandidate rfl⟩
      | false => exact ⟨_, .missing noCandidate rfl⟩
    · obtain ⟨name, definition, registered, assignable⟩ :=
        exists_of_count_pos (Nat.lt_of_lt_of_eq Nat.one_pos only.symm)
      exact ⟨_, .single noPrimary registered assignable only⟩
    · exact ⟨_, .several noPrimary several⟩
  · obtain ⟨name, definition, registered, passes⟩ :=
      exists_of_count_pos (Nat.lt_of_lt_of_eq Nat.one_pos only.symm)
    rw [Bool.and_eq_true] at passes
    exact ⟨_, .primary registered passes.1 passes.2 only⟩
  · exact ⟨_, .severalPrimary several⟩

end Registry

namespace Candidates

theorem eq_singleton_of_mem {names : List String} {name : String} (member : name ∈ names)
    (only : names.length = 1) : names = [name] := by
  obtain ⟨one, rfl⟩ := List.length_eq_one_iff.1 only
  rw [List.mem_singleton.1 member]

section Visiting

variable {registry : Registry} {element : TypeName} {order : List (String × Definition)}
  (visits : order.Perm registry.visit)
include visits

theorem length_all_among : (among order element).all.length = registry.countOf element := by
  rw [Registry.countOf, Registry.count, ← visits.countP_eq, List.countP_eq_length_filter]
  simp [among]

theorem length_primary_among :
    (among order element).primary.length = registry.countPrimary element := by
  rw [Registry.countPrimary, Registry.count, ← visits.countP_eq, List.countP_eq_length_filter,
    ← List.filter_filter]
  simp [among]

/-- A registered definition of the type is found, in whatever order the visit is. -/
theorem mem_all_among {name : String} {definition : Definition}
    (registered : registry.find? name = some definition)
    (assignable : definition.isAssignableTo element = true) :
    name ∈ (among order element).all := by
  have visited : (name, definition) ∈ order :=
    visits.mem_iff.2 (Registry.mem_visit_iff.2 registered)
  simp only [among, List.mem_map, List.mem_filter]
  exact ⟨(name, definition), ⟨visited, assignable⟩, rfl⟩

theorem mem_primary_among {name : String} {definition : Definition}
    (registered : registry.find? name = some definition)
    (isPrimary : definition.isPrimary = true)
    (assignable : definition.isAssignableTo element = true) :
    name ∈ (among order element).primary := by
  have visited : (name, definition) ∈ order :=
    visits.mem_iff.2 (Registry.mem_visit_iff.2 registered)
  simp only [among, List.mem_map, List.mem_filter]
  exact ⟨(name, definition), ⟨⟨visited, assignable⟩, isPrimary⟩, rfl⟩

/-- What is to be selected is selected. -/
theorem select_among_of_selects {field type : String} {isOptional : Bool}
    {result : Except BeanError (Option String)}
    (selects : registry.Selects element field type isOptional result) :
    (among order element).select field type isOptional = result := by
  have primaries : (among order element).primary.length = registry.countPrimary element :=
    length_primary_among visits
  have candidates : (among order element).all.length = registry.countOf element :=
    length_all_among visits
  cases selects with
  | primary registered isPrimary assignable only =>
      have shape := eq_singleton_of_mem
        (mem_primary_among visits registered isPrimary assignable) (primaries.trans only)
      simp only [select, shape]
  | severalPrimary several =>
      unfold select
      split
      next shape => simp [shape, ← primaries] at several
      next => rw [primaries]
      next shape => simp [shape, ← primaries] at several
  | single noPrimary registered assignable only =>
      have none := List.length_eq_zero_iff.1 (primaries.trans noPrimary)
      have shape := eq_singleton_of_mem (mem_all_among visits registered assignable)
        (candidates.trans only)
      simp only [select, none, shape]
  | several noPrimary several =>
      have none := List.length_eq_zero_iff.1 (primaries.trans noPrimary)
      simp only [select, none]
      split
      next shape => simp [shape, ← candidates] at several
      next shape => simp [shape, ← candidates] at several
      next => rw [candidates]
  | tolerated noCandidate optional =>
      have none := List.length_eq_zero_iff.1
        (primaries.trans (Registry.countPrimary_eq_zero noCandidate))
      have empty := List.length_eq_zero_iff.1 (candidates.trans noCandidate)
      simp only [select, none, empty, optional, if_true]
  | missing noCandidate required =>
      have none := List.length_eq_zero_iff.1
        (primaries.trans (Registry.countPrimary_eq_zero noCandidate))
      have empty := List.length_eq_zero_iff.1 (candidates.trans noCandidate)
      simp [select, none, empty, required]

end Visiting

/-- What is selected for a place that takes one bean depends on the registered definitions
alone: it is the same in whatever orders they are visited, and in each of them it is what the
numbers of definitions and of primary ones call for. -/
theorem select_ignores_order (registry : Registry) (element : TypeName) (field type : String)
    (isOptional : Bool) {order other : List (String × Definition)}
    (visits : order.Perm registry.visit) (otherVisits : other.Perm registry.visit) :
    (among order element).select field type isOptional =
      (among other element).select field type isOptional ∧
    ∀ result, (among order element).select field type isOptional = result ↔
      registry.Selects element field type isOptional result := by
  obtain ⟨selected, selects⟩ := registry.exists_selects element field type isOptional
  have isSelected := select_among_of_selects visits selects
  have isSelectedToo := select_among_of_selects otherVisits selects
  constructor
  · exact isSelected.trans isSelectedToo.symm
  · intro result
    constructor
    · intro equal
      rw [← equal, isSelected]
      exact selects
    · exact select_among_of_selects visits

/-- A definition that can be handed out as a codec. -/
def codec (name : String) (isPrimary : Bool) : Definition where
  name := name
  type := ⟨name⟩
  scope := .singleton
  isLazy := false
  isPrimary
  fields := []
  recipe := .blank
  casts := ⟨⟨name⟩, [⟨name⟩, ⟨"Codec"⟩]⟩

/-- Three codecs, of which one is primary. -/
def codecs : Registry where
  definitions := .ofList
    [("yaml", codec "Yaml" false), ("json", codec "Json" true), ("toml", codec "Toml" false)]

/-- The primary codec is selected in both directions. -/
theorem codecs_ignore_order :
    codecs.visit.reverse.Perm codecs.visit ∧ codecs.visit.Perm codecs.visit ∧
      (among codecs.visit.reverse ⟨"Codec"⟩).select "codec" "dyn Codec" false =
        (among codecs.visit ⟨"Codec"⟩).select "codec" "dyn Codec" false ∧
      (among codecs.visit.reverse ⟨"Codec"⟩).select "codec" "dyn Codec" false =
        .ok (some "json") := by
  have reversed := codecs.visit.reverse_perm
  obtain ⟨same, selected⟩ :=
    select_ignores_order codecs ⟨"Codec"⟩ "codec" "dyn Codec" false reversed (.refl _)
  refine ⟨reversed, .refl _, same, (selected _).2 ?_⟩
  have registered : codecs.find? "json" = some (codec "Json" true) := rfl
  exact .primary registered rfl (by decide) (by decide)

end Candidates
end BeanContainer
