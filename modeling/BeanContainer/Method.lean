import BeanContainer.Injection
import BeanContainer.Table
import BeanContainer.Text.Lowercase

/-!
# Constructor methods

A bean type offers methods that make its beans from arguments.  Filters choose
among them by name and by number of arguments.  The arguments of the chosen
method are literals and injection points, and each must have exactly the type of
its parameter; an argument that may be missing goes to a parameter that may be.
-/

namespace BeanContainer

/-- Resolved values by the position of the field or argument they belong to. -/
abbrev Supply := Table Nat Value

/-- A constructor method.  It either refuses its arguments with a text, or makes
a bean with the given cells already filled.  The arguments alone settle which, and
cells of beans that exist already are not filled by it. -/
structure Method where
  name : String
  parameters : List ValueType
  call : List Value → Except String (List (String × Value))

/-- A declared constructor argument. -/
inductive Argument where
  | literal (value : Value)
  /-- Injected as its tag says; a lifted one may be missing. -/
  | wired (slot : Slot) (tag : String) (isLifted : Bool)

namespace Argument

/-- The type of what the method receives. -/
def type : Argument → ValueType
  | .literal value => value.type
  | .wired slot _ false => slot.valueType
  | .wired slot _ true => .option slot.valueType

end Argument

/-- Decides whether a method may make beans of the type from the arguments. -/
abbrev MethodFilter := TypeName → Method → List Argument → Bool

namespace MethodFilter

/-- Accepts methods named `new_` and the type's own name, without regard to case
and underscores. -/
def byName : MethodFilter := fun owner method _ =>
  Text.fold method.name.toList = Text.fold ("new" ++ owner.short).toList

/-- Accepts methods with as many parameters as there are arguments. -/
def byArity : MethodFilter := fun _ method arguments =>
  method.parameters.length = arguments.length

/-- Accepts methods whose name starts with the given text. -/
def startingWith (front : String) : MethodFilter := fun _ method _ =>
  (Text.dropFront? front.toList method.name.toList).isSome

/-- The filters that apply unless a declaration names others. -/
def default : List MethodFilter := [byName, byArity]

end MethodFilter

/-- What the method receives at one position. -/
inductive Input where
  | literal (value : Value)
  | injected (point : InjectionPoint) (isLifted : Bool)

namespace Input

/-- The injection point, if the input is not a literal. -/
def point? : Input → Option InjectionPoint
  | .literal _ => none
  | .injected point _ => some point

/-- The input of an argument for the parameter at its position. -/
def ofArgument (owner : TypeName) (method : Method) (index : Nat) (argument : Argument)
    (parameter : ValueType) : Except Defect Input :=
  if argument.type ≠ parameter then
    .error (.argumentMismatch index owner.text argument.type.name method.name parameter.name)
  else
    match argument with
    | .literal value => .ok (.literal value)
    | .wired slot tag isLifted =>
        let name := "F" ++ toString index
        match Dependency.declare slot name tag with
        | .error defect => .error defect
        | .ok none => .error (.tagRequired index owner.text)
        | .ok (some dependency) =>
            if dependency.isOptional ∧ ¬ isLifted then .error (.optionRequired index owner.text)
            else .ok (.injected ⟨index, name, argument.type, dependency, none⟩ isLifted)

/-- The inputs of arguments from the given position on, as far as there are
parameters.  The first defect wins. -/
def ofArguments (owner : TypeName) (method : Method) :
    (index : Nat) → List Argument → List ValueType → Except Defect (List Input)
  | index, argument :: arguments, parameter :: parameters => do
      let input ← ofArgument owner method index argument parameter
      let rest ← ofArguments owner method (index + 1) arguments parameters
      return input :: rest
  | _, _, _ => .ok []

/-- Puts a literal at its position, and makes an input that may be missing out of
a resolved value. -/
def prepare (input : Input) (index : Nat) (supply : Supply) : Supply :=
  match input with
  | .literal value => supply.insert index value
  | .injected point true =>
      supply.insert index (Value.lift point.dependency.slot.valueType (supply.find? index))
  | .injected _ false => supply

/-- Prepares all inputs from the given position on. -/
def prepareAll : (index : Nat) → List Input → Supply → Supply
  | _, [], supply => supply
  | index, input :: inputs, supply => prepareAll (index + 1) inputs (input.prepare index supply)

end Input

namespace Method

/-- The arguments for the parameters from the given position on. -/
def arguments (supply : Supply) :
    (index : Nat) → List ValueType → Except ConstructionFault (List Value)
  | _, [] => .ok []
  | index, parameter :: parameters =>
      match supply.find? index with
      | none => .error (.missingArgument index)
      | some value =>
          if value.type = parameter then
            (arguments supply (index + 1) parameters).map (value :: ·)
          else .error (.wrongArgument index parameter.name)

end Method

/-- How the beans of a definition are made: as an empty bean of the type, or by a
method from its inputs. -/
inductive Recipe where
  /-- None of the cells is filled: types whose default presets some do not occur. -/
  | blank
  | calling (method : Method) (inputs : List Input)

namespace Recipe

/-- The name of the method, if there is one. -/
def methodName : Recipe → Option String
  | .blank => none
  | .calling method _ => some method.name

/-- The injection points of the inputs. -/
def points : Recipe → List InjectionPoint
  | .blank => []
  | .calling _ inputs => inputs.filterMap Input.point?

/-- The recipe of a method for the declared arguments. -/
def ofMethod (owner : TypeName) (method : Method) (arguments : List Argument) :
    Except Defect Recipe :=
  (Input.ofArguments owner method 0 arguments method.parameters).map (.calling method)

/-- The recipe of the only method that passes all filters; a blank one if none
does, in which case the arguments play no part. -/
def choose (owner : TypeName) (methods : List Method) (filters : List MethodFilter)
    (arguments : List Argument) : Except BeanError Recipe :=
  match methods.filter fun method => filters.all fun filter => filter owner method arguments with
  | [] => .ok .blank
  | [method] => (ofMethod owner method arguments).mapError .invalid
  | several => .error (.ambiguousConstructor several.length owner.text)

/-- Calls the method with the resolved values: the arguments it received, and the
cells it filled. -/
def run (method : Method) (inputs : List Input) (supply : Supply) :
    Except ConstructionFault (List Value × List (String × Value)) := do
  let arguments ← Method.arguments (Input.prepareAll 0 inputs supply) 0 method.parameters
  let cells ← (method.call arguments).mapError .refused
  return (arguments, cells)

end Recipe
end BeanContainer
