import BeanContainer.Text.Cut

/-!
# Names of types

Bean types are told apart by their full names, which give the path to a type,
then generic arguments in angle brackets.  An interface starts with the word
`dyn` and may list further bounds after plus signs.  The short name is what is
left of path, arguments and bounds: the default name of a bean.
-/

namespace BeanContainer

/-- The full name of a type. -/
structure TypeName where
  text : String
  deriving DecidableEq, Repr, Inhabited

namespace TypeName

instance : ToString TypeName := ⟨TypeName.text⟩

/-- The type's own name, by four cuts: generic arguments, the interface word,
bounds and path go, in this order. -/
def shortChars (name : List Char) : List Char :=
  let withoutArguments := Text.beforeFirst "<".toList name
  let withoutWord := (Text.dropFront? "dyn ".toList withoutArguments).getD withoutArguments
  Text.afterLast "::".toList (Text.beforeFirst " + ".toList withoutWord)

/-- The type's own name, without path, generic arguments and bounds. -/
def short (name : TypeName) : String := String.ofList (shortChars name.text.toList)

example : short ⟨"app::server::HttpServer<app::Tls>"⟩ = "HttpServer" := by decide
example : short ⟨"dyn app::Handler + core::marker::Send"⟩ = "Handler" := by decide

end TypeName
end BeanContainer
