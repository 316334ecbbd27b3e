import BeanContainer.Property.Error
import BeanContainer.TypeName

/-!
# Errors of the container

Each error says what went wrong; its kind says how callers treat it.  Only two
kinds are ever caught inside the container: an optional reference tolerates that
its bean is not found, and a processor that does not apply is passed over.
-/

namespace BeanContainer

/-- The classes of errors that callers tell apart. -/
inductive ErrorKind where
  | notFound
  | duplicate
  | declined
  | ambiguous
  | circular
  | invalid
  | construction
  | timeout
  deriving DecidableEq, Repr

namespace ErrorKind

def name : ErrorKind → String
  | .notFound => "NotFound"
  | .duplicate => "Duplicate"
  | .declined => "Continue"
  | .ambiguous => "Ambiguous"
  | .circular => "Circular"
  | .invalid => "Invalid"
  | .construction => "Construction"
  | .timeout => "Timeout"

end ErrorKind

/-- What is wrong with a declaration, or with a value on its way into a cell. -/
inductive Defect where
  /-- The tag starts with neither of the two words. -/
  | unknownTag (tag : String)
  /-- The property reference does not stand between the marks. -/
  | unmarkedProperty (content : String)
  | emptyProperty
  | emptyBean
  /-- A bean reference is qualified by another word than the one for optional. -/
  | unknownQualifier (qualifier : String)
  /-- A property field or argument is tagged with a bean. -/
  | propertyExpected (name : String)
  /-- A bean field or argument is tagged with a property. -/
  | beanExpected (name : String)
  | unsupportedScope (scope : String)
  | reservedScope (scope : String)
  /-- A declared constructor argument has another type than the parameter. -/
  | argumentMismatch (index : Nat) (owner argument : String) (method parameter : String)
  | tagRequired (index : Nat) (owner : String)
  /-- An optional reference goes to a parameter that cannot be missing. -/
  | optionRequired (index : Nat) (owner : String)
  /-- A field is written into a bean of another type. -/
  | wrongTarget (field type : String)
  /-- A field is written with a value of another type. -/
  | wrongValue (field type : String)
  /-- A constructor argument is written like a field. -/
  | noCell (name : String)
  /-- A defect that a caller words itself. -/
  | other (text : String)
  deriving DecidableEq, Repr

namespace Defect

def message : Defect → String
  | .unknownTag tag =>
      "Invalid tag '" ++ tag ++ "', it must start with 'value:' or 'autowire:'"
  | .unmarkedProperty content =>
      "Invalid value '" ++ content ++ "', it must format as $\x7bx.y\x7d"
  | .emptyProperty => "Required value content, it can't be empty"
  | .emptyBean => "Required autowire content, it can't be empty"
  | .unknownQualifier qualifier =>
      "Invalid autowire '" ++ qualifier ++ "', it must be 'optional'"
  | .propertyExpected name =>
      "field '" ++ name ++ "' is a property field, it must be annotated with 'value:'"
  | .beanExpected name =>
      "field '" ++ name ++ "' is a bean field, it must be annotated with 'autowire:'"
  | .unsupportedScope scope =>
      "Unsupported scope '" ++ scope ++ "', it must be ['singleton', 'prototype']"
  | .reservedScope scope =>
      "Invalid scope name '" ++ scope
        ++ "', cannot replace existing scopes 'prototype' and 'singleton'"
  | .argumentMismatch index owner argument method parameter =>
      "constructor argument " ++ toString index ++ " of '" ++ owner ++ "' is a '" ++ argument
        ++ "', '" ++ method ++ "' expects '" ++ parameter ++ "'"
  | .tagRequired index owner =>
      "constructor argument " ++ toString index ++ " of '" ++ owner ++ "' requires an annotation"
  | .optionRequired index owner =>
      "constructor argument " ++ toString index ++ " of '" ++ owner
        ++ "' is optional, its parameter must be an Option"
  | .wrongTarget field type =>
      "cannot wire field '" ++ field ++ "', target is not a '" ++ type ++ "'"
  | .wrongValue field type =>
      "cannot wire field '" ++ field ++ "', value is not a '" ++ type ++ "'"
  | .noCell name => "'" ++ name ++ "' is not backed by a field"
  | .other text => text

end Defect

/-- Why a constructor method did not make a bean. -/
inductive ConstructionFault where
  | missingArgument (index : Nat)
  | wrongArgument (index : Nat) (type : String)
  /-- The method refused its arguments with the given text. -/
  | refused (text : String)
  deriving DecidableEq, Repr

namespace ConstructionFault

def message : ConstructionFault → String
  | .missingArgument index => "constructor argument " ++ toString index ++ " is missing"
  | .wrongArgument index type =>
      "constructor argument " ++ toString index ++ " is not a '" ++ type ++ "'"
  | .refused text => text

end ConstructionFault

/-- Errors of defining, registering and obtaining beans. -/
inductive BeanError where
  | definitionNotFound (name : String)
  | noCandidate (field type : String)
  | property (error : PropertyError)
  | duplicateDefinition (name : String)
  | duplicateSingleton (name : String)
  | ambiguousPrimary (count : Nat) (field type : String)
  | ambiguousCandidates (count : Nat) (field type : String)
  | ambiguousConstructor (count : Nat) (type : String)
  /-- The bean was requested while it could not yet be handed out. -/
  | circular (name : String)
  | invalid (defect : Defect)
  /-- The bean cannot be handed out as the target. -/
  | cast (bean target : String)
  | alreadyWired (field : String)
  /-- A processor does not apply to the bean. -/
  | declined (reason : String)
  | construction (bean : String) (fault : ConstructionFault)
  /-- The callback of the stage failed. -/
  | lifecycle (bean stage cause : String)
  | timeout
  /-- Requests were nested deeper than the allowance of the outermost one. -/
  | tooDeep
  deriving DecidableEq, Repr

namespace BeanError

def message : BeanError → String
  | .definitionNotFound name => "No bean '" ++ name ++ "' registered"
  | .noCandidate field type =>
      "No candidate found for field '" ++ field ++ "' with type " ++ type
  | .property error => error.message
  | .duplicateDefinition name =>
      "Cannot register bean '" ++ name ++ "': It is already registered"
  | .duplicateSingleton name =>
      "Invalid object under bean name '" ++ name ++ "', it already exists"
  | .ambiguousPrimary count field type =>
      toString count ++ " primary candidates found for field '" ++ field ++ "' with type " ++ type
  | .ambiguousCandidates count field type =>
      toString count ++ " candidates found for field '" ++ field ++ "' with type " ++ type
  | .ambiguousConstructor count type =>
      "Too many functions '" ++ toString count
        ++ "' match the constructor filters for type '" ++ type ++ "'"
  | .circular name => "cannot get bean '" ++ name ++ "' circularly"
  | .invalid defect => defect.message
  | .cast bean target => "cannot convert bean '" ++ bean ++ "' to '" ++ target ++ "'"
  | .alreadyWired field => "field '" ++ field ++ "' is already wired"
  | .declined reason => reason
  | .construction bean fault =>
      "Constructor for '" ++ bean ++ "' failed - error: " ++ fault.message
  | .lifecycle bean stage cause =>
      stage ++ " of '" ++ bean ++ "' failed - error: " ++ cause
  | .timeout => "Initiation timed out"
  | .tooDeep => "Requests are nested too deeply"

def kind : BeanError → ErrorKind
  | .definitionNotFound _ | .noCandidate .. => .notFound
  | .property error => if error.isNotFound then .notFound else .invalid
  | .duplicateDefinition _ | .duplicateSingleton _ => .duplicate
  | .ambiguousPrimary .. | .ambiguousCandidates .. | .ambiguousConstructor .. => .ambiguous
  | .circular _ => .circular
  | .invalid _ | .cast .. | .alreadyWired _ => .invalid
  | .declined _ => .declined
  | .construction .. | .lifecycle .. => .construction
  | .timeout => .timeout
  | .tooDeep => .circular

/-- Whether something requested is absent. -/
def isNotFound (error : BeanError) : Bool := error.kind = .notFound

/-- Whether a name is already taken. -/
def isDuplicate (error : BeanError) : Bool := error.kind = .duplicate

/-- Whether the callee merely does not apply. -/
def isDeclined (error : BeanError) : Bool := error.kind = .declined

/-- An error of reading properties as one of the container. -/
def ofProperty {α : Type} : Except PropertyError α → Except BeanError α
  | .ok value => .ok value
  | .error error => .error (.property error)

end BeanError
end BeanContainer
