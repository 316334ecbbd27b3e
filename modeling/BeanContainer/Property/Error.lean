/-!
# Errors of reading properties
-/

namespace BeanContainer

/-- Why a property could not be read. -/
inductive PropertyError where
  /-- The key is not set and there is no default. -/
  | notFound (key : String)
  /-- The raw value does not read as the requested type. -/
  | conversion (key value target : String)
  /-- An indexed key of a sequence has no whole number between its brackets. -/
  | invalidIndex (key index : String)
  deriving DecidableEq, Repr

namespace PropertyError

def message : PropertyError → String
  | .notFound key => "property with key='" ++ key ++ "' not found"
  | .conversion key value target =>
      "cannot convert property '" ++ key ++ "' value '" ++ value ++ "' to '" ++ target ++ "'"
  | .invalidIndex key index =>
      "invalid index '" ++ index ++ "' for property slice '" ++ key ++ "'"

/-- Whether the property is absent. -/
def isNotFound : PropertyError → Bool
  | .notFound _ => true
  | .conversion .. | .invalidIndex .. => false

end PropertyError
end BeanContainer
