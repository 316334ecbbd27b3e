import BeanContainer.Proofs.Request.Failures
import BeanContainer.Proofs.Run.Effects

/-!
# Wiring is typed

Declarations are checked when they are made into definitions.  If their methods are chosen by their
number of parameters, what is resolved later has the types that were declared, so that setters and
methods never meet a value of another type.
-/

namespace BeanContainer

/-- The error is that a setter met another bean or value than it is for, or that a method met an
argument that is missing or of another type. -/
inductive BeanError.IsMiswiring : BeanError → Prop
  | wrongTarget (field type : String) : IsMiswiring (.invalid (.wrongTarget field type))
  | wrongValue (field type : String) : IsMiswiring (.invalid (.wrongValue field type))
  | noCell (field : String) : IsMiswiring (.invalid (.noCell field))
  | missingArgument (bean : String) (index : Nat) :
      IsMiswiring (.construction bean (.missingArgument index))
  | wrongArgument (bean : String) (index : Nat) (type : String) :
      IsMiswiring (.construction bean (.wrongArgument index type))

section Selection

variable {point : InjectionPoint} {registry : Registry} {error : BeanError}
  (present : error.kind ≠ .notFound) (single : error.kind ≠ .ambiguous)
include present single

/-- Selecting a candidate fails only because there is none or several. -/
theorem Candidates.select_ne (candidates : Candidates) (field type : String) (isOptional : Bool) :
    candidates.select field type isOptional ≠ .error error := by
  intro failed
  unfold select at failed
  split at failed
  next => cases failed
  next =>
    cases failed
    exact single rfl
  next =>
    split at failed
    next =>
      split at failed
      next => cases failed
      next =>
        cases failed
        exact present rfl
    next => cases failed
    next =>
      cases failed
      exact single rfl

/-- So does looking for the names of a point. -/
theorem InjectionPoint.names_ne : point.names registry ≠ .error error := by
  intro failed
  unfold names at failed
  split at failed
  next => cases failed
  next reference target _ =>
    simp only [] at failed
    split at failed
    next =>
      split at failed
      next => cases failed
      next =>
        cases selected : (registry.candidates target.element).select point.name point.type.name
            reference.isOptional with
        | ok name =>
            rw [selected] at failed
            cases failed
        | error other =>
            rw [selected] at failed
            cases failed
            exact Candidates.select_ne present single _ _ _ _ selected
    next => cases failed

end Selection

namespace Container

variable {name : String} {start final : Container}

/-- Only a processor can report a miswiring. -/
theorem Failure.of_miswiring {error : BeanError} (failure : Failure name start final error)
    (miswiring : error.IsMiswiring) : start.processors.Answered error start.heap final.heap := by
  cases failure with
  | answered answered => exact answered
  | undecided _ names =>
      cases miswiring <;> exact absurd names (InjectionPoint.names_ne nofun nofun)
  | unknown => cases miswiring
  | circular => cases miswiring
  | unread => cases miswiring
  | unfit => cases miswiring
  | refused => cases miswiring
  | filled => cases miswiring
  | lifecycle => cases miswiring

/-- The request made a bean of a definition in which the named field shares its cell with another
one or with the constructor. -/
def Overfills (name : String) (start final : Container) (field : String) : Prop :=
  ∃ owner definition record point, start.registry.Reaches name owner ∧
    start.registry.find? owner = some definition ∧
      start.heap.Notes final.heap (.constructed owner definition (.plain record)) ∧
        point.name = field ∧ definition.Overfills final.heap record point

/-- A cell is found filled only if its field shares it. -/
theorem Failure.of_alreadyWired {field : String}
    (failure : Failure name start final (.alreadyWired field)) :
    start.processors.Answered (.alreadyWired field) start.heap final.heap ∨
      Overfills name start final field := by
  cases failure with
  | answered answered => exact .inl answered
  | undecided _ names => exact absurd names (InjectionPoint.names_ne nofun nofun)
  | filled reaches registered made overfills =>
      exact .inr ⟨_, _, _, _, reaches, registered, made, rfl, overfills⟩

/-- The request had the bean of the owner for a point, but this bean cannot be handed out as the
type of the given name, as which the point wants it. -/
def Unfit (name : String) (start : Container) (owner text : String) : Prop :=
  ∃ point reference target handout middle, start.Needs name point ∧
    point.dependency = .bean reference target ∧ target.element.text = text ∧
      Inside name start middle ∧ (request owner middle).1 = .ok handout ∧
        ¬ handout.Fits target.element

/-- A bean cannot be cast only if it does not fit, and never for what becomes of it when it does. -/
theorem Failure.of_cast {owner text : String}
    (failure : Failure name start final (.cast owner text)) :
    start.processors.Answered (.cast owner text) start.heap final.heap ∨
      Unfit name start owner text := by
  cases failure with
  | answered answered => exact .inl answered
  | undecided _ names => exact absurd names (InjectionPoint.names_ne nofun nofun)
  | unfit needs dependency inside answered unfit =>
      exact .inr ⟨_, _, _, _, _, needs, dependency, rfl, inside, answered, unfit⟩

/-- Each value that is resolved for points belongs to one of them, and has the type that its slot
can hold. -/
theorem resolveAll_types {points : List InjectionPoint} {supply : Supply}
    (ascending : points.Pairwise fun point other => point.index < other.index)
    (resolves : (resolveAll request points start).1 = .ok supply) {index : Nat} {value : Value}
    (found : supply.find? index = some value) :
    ∃ point ∈ points, point.index = index ∧ value.type = point.dependency.slot.valueType := by
  obtain ⟨asked, _, gathers⟩ :=
    resolveAll_asking (keepsConfiguration request_restores) points start
  rw [resolves] at gathers
  obtain ⟨point, isPoint, rfl, _⟩ := gathers.supplied index value found
  exact ⟨point, isPoint, rfl, gathers.type_eq ascending isPoint found⟩

end Container

/-! ## Typed definitions -/

namespace Definition

variable {definition : Definition}

/-- Each input suits some parameter. -/
theorem Typed.suits (typed : definition.Typed) {index : Nat} {input : Input}
    (isInput : definition.recipe.input? index = some input) :
    ∃ parameter, input.Suits parameter := by
  cases recipe : definition.recipe with
  | blank =>
      rw [recipe] at isInput
      cases isInput
  | calling method inputs =>
      rw [recipe] at isInput
      obtain ⟨parameter, _, suits⟩ := exists_of_forall₂_left (typed.inputs method inputs recipe)
        (List.mem_of_getElem? isInput)
      exact ⟨parameter, suits⟩

open Container in
/-- Each value that is resolved for the fields of the definition belongs to a field and has its
type.  Each one that is resolved for the arguments of its method belongs to an argument and has its
type, or the type that it may be missing. -/
def ResolvesTyped (definition : Definition) : Prop :=
  ∀ start supply index value, supply.find? index = some value →
    ((resolveAll request definition.fields start).1 = .ok supply →
      (∃ point ∈ definition.fields, point.index = index) ∧
        ∀ point ∈ definition.fields, point.index = index → value.type = point.type) ∧
    ((resolveAll request definition.recipe.points start).1 = .ok supply →
      ∃ point isLifted, definition.recipe.input? index = some (.injected point isLifted) ∧
        point.type = if isLifted then .option value.type else value.type)

open Container in
theorem Typed.resolvesTyped (typed : definition.Typed) : definition.ResolvesTyped := by
  refine fun start supply index value found => ⟨?fields, ?arguments⟩
  case fields =>
    intro resolves
    obtain ⟨point, isPoint, isAt, type⟩ := resolveAll_types typed.ascending resolves found
    refine ⟨⟨point, isPoint, isAt⟩, fun other isOther isAtToo => ?_⟩
    have same := typed.numbered.fields other isOther point isPoint (isAtToo.trans isAt.symm)
    subst same
    exact type.trans (typed.fields _ isPoint).1.symm
  case arguments =>
    intro resolves
    obtain ⟨point, isPoint, rfl, type⟩ :=
      resolveAll_types typed.numbered.points_ascending resolves found
    obtain ⟨index, isLifted, isArgument⟩ := Recipe.input?_of_mem_points isPoint
    obtain ⟨parameter, suits⟩ := typed.suits isArgument
    rw [typed.numbered.arguments index point isLifted isArgument]
    refine ⟨point, isLifted, isArgument, ?_⟩
    rw [type]
    cases suits with
    | required isType required => exact isType
    | lifted isType => exact isType

end Definition

namespace Container

/-- After every run in which methods are chosen by their number of parameters, what is resolved has
the declared types, whenever it is resolved.  A request reports a miswiring only if a processor
does, it finds a cell filled only if two fields share it or the constructor filled it, and it fails
to cast a bean only if this bean cannot be handed out as the type as which it is wanted. -/
theorem run_wires_typed (properties : PropertyStore) {operations : List Operation}
    (byArity : ∀ name declaration, .register name declaration ∈ operations →
      MethodFilter.byArity ∈ declaration.filters) :
    (∀ owner definition, ((new properties).run operations).registry.find? owner = some definition →
      definition.ResolvesTyped) ∧
    ∀ name error final, request name ((new properties).run operations) = (.error error, final) →
      let start := (new properties).run operations
      Failure name start final error ∧
      (error.IsMiswiring → start.processors.Answered error start.heap final.heap) ∧
      (∀ field, error = .alreadyWired field →
        start.processors.Answered error start.heap final.heap ∨
          Overfills name start final field) ∧
      ∀ owner text, error = .cast owner text →
        start.processors.Answered error start.heap final.heap ∨ Unfit name start owner text := by
  have typed : ∀ owner definition,
      ((new properties).run operations).registry.find? owner = some definition →
        definition.Typed := by
    intro owner definition registered
    obtain ⟨declaration, member, declared⟩ := run_declares properties operations owner definition
      registered
    exact Declaration.typed_of_define declared (byArity owner declaration member)
  refine ⟨fun owner definition registered => (typed owner definition registered).resolvesTyped, ?_⟩
  intro name error final outcome
  have failure := request_fails typed (congrArg Prod.fst outcome)
  rw [outcome] at failure
  refine ⟨failure, failure.of_miswiring, ?_, ?_⟩
  · rintro field rfl
    exact failure.of_alreadyWired
  · rintro owner text rfl
    exact failure.of_cast

/-- A bean type whose two text fields share a cell. -/
def parcel : Declaration where
  type := ⟨"Parcel"⟩
  fields :=
    [⟨"sender", "label", .property (.scalar .text), "value:$\x7bsender:=unknown\x7d"⟩,
    ⟨"receiver", "label", .property (.scalar .text), "value:$\x7breceiver:=unknown\x7d"⟩]

namespace parcel

theorem byArity (name : String) (declaration : Declaration)
    (member : .register name declaration ∈ [Operation.register "Parcel" parcel]) :
    MethodFilter.byArity ∈ declaration.filters := by
  cases List.mem_singleton.1 member
  simp [parcel, MethodFilter.default]

/-- The bean type is registered. -/
def registered : Container := (new {}).run [.register "Parcel" parcel]

theorem isRegistered : ∃ definition, registered.registry.find? "Parcel" = some definition := by
  have isSome : (registered.registry.find? "Parcel").isSome = true := by decide +kernel
  exact Option.isSome_iff_exists.1 isSome

theorem fails : (request "Parcel" registered).1 = .error (.alreadyWired "receiver") := by
  have isError : (match (request "Parcel" registered).1 with
      | .error (.alreadyWired field) => field == "receiver"
      | _ => false) = true := by
    decide +kernel
  generalize (request "Parcel" registered).1 = result at isError ⊢
  split at isError
  next => rw [eq_of_beq isError]
  next => cases isError

theorem unprocessed : registered.processors.links.filterMap Link.processor? = [] := by
  have isEmpty : (registered.processors.links.filterMap Link.processor?).isEmpty = true := by
    decide +kernel
  exact List.isEmpty_iff.1 isEmpty

end parcel

/-- The second of two fields that share a cell cannot be written, whatever is resolved for it. -/
theorem parcel_wires_typed :
    (∀ name declaration, .register name declaration ∈ [Operation.register "Parcel" parcel] →
      MethodFilter.byArity ∈ declaration.filters) ∧
    (∃ definition, parcel.registered.registry.find? "Parcel" = some definition ∧
      definition.ResolvesTyped) ∧
    Overfills "Parcel" parcel.registered (request "Parcel" parcel.registered).2 "receiver" := by
  obtain ⟨typed, fails⟩ := run_wires_typed {} parcel.byArity
  obtain ⟨definition, registered⟩ := parcel.isRegistered
  refine ⟨parcel.byArity, ⟨definition, registered, typed _ definition registered⟩, ?_⟩
  have failed := parcel.fails
  generalize outcome : request "Parcel" parcel.registered = answered at failed ⊢
  obtain ⟨result, final⟩ := answered
  cases failed
  obtain ⟨_, _, alreadyWired, _⟩ := fails "Parcel" _ final outcome
  rcases alreadyWired "receiver" rfl with ⟨processor, isLink, _⟩ | overfills
  · have none : processor ∈ parcel.registered.processors.links.filterMap Link.processor? := isLink
    rw [parcel.unprocessed] at none
    cases none
  · exact overfills

end Container
end BeanContainer
