import BeanContainer.TypeName

/-!
# Short names of types

The full name of a type is a path, perhaps with the word `dyn` in front and with arguments
and bounds behind.  Its short name is the last part of the path, whatever the arguments and
the bounds are: the marks at which names are cut may all stand in them.
-/

namespace BeanContainer.TypeName

/-! ## Spelled names -/

/-- The characters at which names of types are cut. -/
def marks : List Char := ['<', ':', ' ', '+']

/-- A part of a path: it is not empty, and none of the marks stands in it. -/
structure Segment where
  text : String
  nonempty : text ≠ ""
  unmarked : ∀ mark ∈ marks, mark ∉ text.toList

/-- What the full name of a type is made up of. -/
structure Spelling where
  /-- Whether the word `dyn` stands in front. -/
  isInterface : Bool := false
  /-- The parts of the path in front of the type's own name. -/
  outer : List Segment := []
  /-- The type's own name, the last part of the path. -/
  own : Segment
  /-- What stands in angle brackets behind the path. -/
  arguments : Option String := none
  /-- What stands behind each plus sign. -/
  bounds : List String := []

namespace Spelling

def word (spelling : Spelling) : String := if spelling.isInterface then "dyn " else ""

def path (spelling : Spelling) : String :=
  String.join (spelling.outer.map fun segment => segment.text ++ "::") ++ spelling.own.text

/-- What stands behind the path. -/
def back (spelling : Spelling) : String :=
  (match spelling.arguments with
    | none => ""
    | some arguments => "<" ++ arguments ++ ">") ++
  String.join (spelling.bounds.map fun bound => " + " ++ bound)

/-- The name that is spelled. -/
def name (spelling : Spelling) : TypeName := ⟨spelling.word ++ spelling.path ++ spelling.back⟩

/-- The whole path is `dyn`, without the word in front, and a bound follows at once: such a name
starts as that of an interface does. -/
def StartsLikeInterface (spelling : Spelling) : Prop :=
  spelling.isInterface = false ∧ spelling.outer = [] ∧ spelling.own.text = "dyn" ∧
    spelling.arguments = none ∧ spelling.bounds ≠ []

instance : DecidablePred StartsLikeInterface := fun _ =>
  inferInstanceAs (Decidable (_ ∧ _ ∧ _ ∧ _ ∧ _))

/-! ## The four cuts -/

variable {spelling : Spelling}

theorem not_mem_path {mark : Char} (isMark : mark ∈ marks) (noColon : mark ≠ ':') :
    mark ∉ spelling.path.toList := by
  simp only [path, String.toList_append, String.toList_join, List.mem_append, List.mem_flatMap,
    List.mem_map, not_or]
  refine ⟨?_, spelling.own.unmarked mark isMark⟩
  rintro ⟨_, ⟨segment, _, rfl⟩, member⟩
  rw [String.toList_append, List.mem_append] at member
  rcases member with inside | behind
  · exact segment.unmarked mark isMark inside
  · simp [noColon] at behind

/-- What a cut at the first angle bracket can leave behind a path: nothing, or bounds. -/
def EndsPath (after : List Char) : Prop := after = [] ∨ ∃ rest, after = " + ".toList ++ rest

/-- Bounds are left only if no arguments stand in front of them. -/
theorem beforeFirst_back (spelling : Spelling) :
    Text.beforeFirst "<".toList spelling.back.toList = [] ∨
      spelling.arguments = none ∧ spelling.bounds ≠ [] ∧
        ∃ rest, Text.beforeFirst "<".toList spelling.back.toList = " + ".toList ++ rest := by
  cases arguments : spelling.arguments with
  | some text =>
      left
      have opens : spelling.back.toList = "<".toList ++ (text ++ ">" ++
          String.join (spelling.bounds.map fun bound => " + " ++ bound)).toList := by
        simp [back, arguments]
      rw [opens]
      exact Text.beforeFirst_mark_append '<' [] _
  | none =>
      cases bounds : spelling.bounds with
      | nil =>
          left
          have empty : spelling.back.toList = [] := by simp [back, arguments, bounds]
          rw [empty]
          rfl
      | cons bound others =>
          right
          have starts : spelling.back.toList = " + ".toList ++ (bound ++
              String.join (others.map fun bound => " + " ++ bound)).toList := by
            simp [back, arguments, bounds]
          rw [starts]
          exact ⟨rfl, List.cons_ne_nil _ _, _,
            Text.beforeFirst_append_of_not_mem (by decide) _⟩

/-- The first cut loses the arguments. -/
theorem beforeFirst_name (spelling : Spelling) :
    Text.beforeFirst "<".toList spelling.name.text.toList =
      spelling.word.toList ++ (spelling.path.toList ++
        Text.beforeFirst "<".toList spelling.back.toList) := by
  have absent : '<' ∉ spelling.word.toList ++ spelling.path.toList := by
    rw [List.mem_append, not_or]
    refine ⟨?_, not_mem_path (by decide) (by decide)⟩
    cases isInterface : spelling.isInterface <;> simp [word, isInterface]
  rw [← List.append_assoc]
  simpa [name] using Text.beforeFirst_append_of_not_mem absent spelling.back.toList

/-- The third cut loses the bounds: a mark that starts as they do ends the path. -/
theorem beforeFirst_path (mark : List Char) {after : List Char}
    (starts : ' ' :: mark <+: " + ".toList) (ends : EndsPath after) :
    Text.beforeFirst (' ' :: mark) (spelling.path.toList ++ after) = spelling.path.toList := by
  have first : Text.beforeFirst (' ' :: mark) after = [] := by
    rcases ends with rfl | ⟨rest, rfl⟩
    · rfl
    · obtain ⟨more, whole⟩ := starts
      rw [← whole, List.append_assoc]
      exact Text.beforeFirst_mark_append ' ' mark _
  rw [Text.beforeFirst_append_of_not_mem (not_mem_path (by decide) (by decide)), first,
    List.append_nil]

/-- Only a path of one part can be spelled like the word. -/
theorem eq_of_path_eq (isWord : spelling.path = "dyn") :
    spelling.outer = [] ∧ spelling.own.text = "dyn" := by
  rcases List.eq_nil_or_concat spelling.outer with alone | ⟨front, last, nested⟩
  · exact ⟨alone, by simpa [path, alone] using isWord⟩
  · have colon : ':' ∈ spelling.path.toList := by simp [path, nested]
    rw [isWord] at colon
    simp at colon

/-- Nothing is taken off the front of a path, unless it is spelled like the word and bounds
follow. -/
theorem dropFront?_path {after : List Char} (ends : EndsPath after)
    (distinct : spelling.path = "dyn" → after = []) :
    Text.dropFront? "dyn ".toList (spelling.path.toList ++ after) = none := by
  rw [Option.eq_none_iff_forall_ne_some]
  intro rest dropped
  rw [Text.dropFront?_eq_some_iff] at dropped
  have isWord : spelling.path.toList = "dyn".toList := by
    rw [← beforeFirst_path [] ⟨"+ ".toList, rfl⟩ ends, dropped]
    rfl
  have blank : ' ' ∈ spelling.path.toList ++ after := by simp [dropped]
  rw [distinct (String.toList_inj.1 isWord), isWord] at blank
  simp at blank

/-- The second cut loses the word, and nothing if there is none. -/
theorem dropFront?_word {after : List Char} (ends : EndsPath after)
    (distinct : spelling.isInterface = false → spelling.path = "dyn" → after = []) :
    (Text.dropFront? "dyn ".toList
      (spelling.word.toList ++ (spelling.path.toList ++ after))).getD
        (spelling.word.toList ++ (spelling.path.toList ++ after)) =
      spelling.path.toList ++ after := by
  cases isInterface : spelling.isInterface with
  | true =>
      have isWord : spelling.word = "dyn " := by simp [word, isInterface]
      rw [isWord, Text.dropFront?_append]
      rfl
  | false =>
      have noWord : spelling.word = "" := by simp [word, isInterface]
      rw [noWord, String.toList_empty, List.nil_append,
        dropFront?_path ends (distinct isInterface)]
      rfl

/-- The last cut loses all of the path but the type's own name. -/
theorem afterLast_path (spelling : Spelling) :
    Text.afterLast "::".toList spelling.path.toList = spelling.own.text.toList := by
  have unmarked := spelling.own.unmarked ':' (by decide)
  rcases List.eq_nil_or_concat spelling.outer with alone | ⟨front, last, nested⟩
  · have isOwn : spelling.path = spelling.own.text := by simp [path, alone]
    rw [isOwn]
    exact Text.afterLast_of_not_mem [':'] unmarked
  · have splits : spelling.path.toList =
        (String.join (front.map fun segment => segment.text ++ "::") ++ last.text).toList ++
          "::".toList ++ spelling.own.text.toList := by
      simp [path, nested]
    rw [splits]
    exact Text.afterLast_append [':'] _ unmarked

theorem shortChars_name (distinct : ¬ spelling.StartsLikeInterface) :
    shortChars spelling.name.text.toList = spelling.own.text.toList := by
  have kept := spelling.beforeFirst_back
  have ends : EndsPath (Text.beforeFirst "<".toList spelling.back.toList) :=
    kept.imp_right fun bounded => bounded.2.2
  have plain : spelling.isInterface = false → spelling.path = "dyn" →
      Text.beforeFirst "<".toList spelling.back.toList = [] := by
    intro noWord isWord
    obtain ⟨noOuter, isOwn⟩ := eq_of_path_eq isWord
    rcases kept with empty | ⟨noArguments, bounds, _⟩
    · exact empty
    · exact absurd ⟨noWord, noOuter, isOwn, noArguments, bounds⟩ distinct
  have withoutBounds : Text.beforeFirst " + ".toList (spelling.path.toList ++
      Text.beforeFirst "<".toList spelling.back.toList) = spelling.path.toList :=
    beforeFirst_path "+ ".toList (List.prefix_refl _) ends
  simp only [shortChars, beforeFirst_name, dropFront?_word ends plain, withoutBounds,
    afterLast_path]

theorem short_name (distinct : ¬ spelling.StartsLikeInterface) :
    spelling.name.short = spelling.own.text := by
  rw [short, shortChars_name distinct, String.ofList_toList]

end Spelling

/-! ## Short names -/

/-- A part of a path is the short name of itself. -/
theorem short_segment (segment : Segment) : short ⟨segment.text⟩ = segment.text := by
  have alone : (Spelling.name { own := segment }) = ⟨segment.text⟩ := by
    simp [Spelling.name, Spelling.word, Spelling.path, Spelling.back]
  rw [← alone]
  exact Spelling.short_name fun starts => starts.2.2.2.2 rfl

/-- The short name of a type is the last part of its path, however its name is spelled, and it
is the short name of itself.  Only a path that is nothing but `dyn` is taken for the word in
front if a bound follows. -/
theorem short_finds_own (spelling : Spelling) (distinct : ¬ spelling.StartsLikeInterface) :
    spelling.name.short = spelling.own.text ∧
      short ⟨spelling.name.short⟩ = spelling.name.short := by
  rw [Spelling.short_name distinct]
  exact ⟨rfl, short_segment spelling.own⟩

/-- An interface whose arguments hold all the marks. -/
def handler : Spelling where
  isInterface := true
  outer := [⟨"app", by decide, by simp [marks]⟩, ⟨"dyn", by decide, by simp [marks]⟩]
  own := ⟨"Handler", by decide, by simp [marks]⟩
  arguments := some "dyn a::B<c::D> + e::F, <g::H as i::J>::K"
  bounds := ["core::marker::Send", "l::M<n::O>"]

theorem handler_finds_own :
    handler.name.text = "dyn app::dyn::Handler<dyn a::B<c::D> + e::F, <g::H as i::J>::K>" ++
        " + core::marker::Send + l::M<n::O>" ∧
      ¬ handler.StartsLikeInterface ∧ handler.name.short = "Handler" ∧
      short ⟨handler.name.short⟩ = handler.name.short := by
  have distinct : ¬ handler.StartsLikeInterface := by decide
  exact ⟨by decide, distinct, short_finds_own handler distinct⟩

/-- Not every path is told from the word: a type that is called `dyn` is lost. -/
theorem not_finds_every_own :
    ¬ ∀ spelling : Spelling, spelling.name.short = spelling.own.text ∧
      short ⟨spelling.name.short⟩ = spelling.name.short := by
  intro always
  have found := (always { own := ⟨"dyn", by decide, by simp [marks]⟩, bounds := ["Send"] }).1
  exact absurd found (by decide)

end BeanContainer.TypeName
