import BeanContainer.Definition

/-!
# What happens to beans

Everything that happens to a bean is kept as an event: its creation, each step
of its life, and each time it is handed out under a name.  Some events have a
line of text, by which beans and processors report what was done with them; the
others only tell the steps apart.
-/

namespace BeanContainer

/-- Something that happened to a bean. -/
inductive Event where
  /-- A record came into being. -/
  | created (bean : Bean)
  /-- A definition's recipe made the bean. -/
  | constructed (name : String) (definition : Definition) (bean : Bean)
  /-- The bean was registered as being in creation. -/
  | entered (name : String) (bean : Bean)
  /-- What the fields of the bean depend on was resolved. -/
  | resolved (name : String) (bean : Bean)
  /-- The fields of the bean were written. -/
  | wired (name : String) (bean : Bean)
  /-- A processor saw the definition of a bean that was wired. -/
  | inspected (processor name : String) (type : TypeName)
  /-- The bean was told its name. -/
  | named (bean : Bean) (name : String)
  /-- The bean received a handle of its container, which showed itself like this. -/
  | acquainted (bean : Bean) (container : String)
  /-- A processor took the bean before its callback. -/
  | before (processor name : String) (bean : Bean)
  /-- The callback of a wired bean ran. -/
  | started (bean : Bean)
  /-- A processor took the bean after its callback. -/
  | after (processor name : String) (bean : Bean)
  /-- The bean is finished and recorded under its name. -/
  | committed (name : String) (bean : Bean)
  /-- The bean could not be finished and is no longer in creation. -/
  | abandoned (name : String) (bean : Bean)
  /-- The bean was the answer to a request for the name. -/
  | handedOut (name : String) (bean : Bean)
  /-- The callback of a singleton ran after pre-instantiation. -/
  | notified (bean : Bean)
  /-- The bean was told of its destruction. -/
  | destroyed (bean : Bean) (name : String)

namespace Event

/-- The line that the event reports, if it has one. -/
def text? : Event → Option String
  | .created bean => some ("new " ++ bean.label)
  | .inspected processor name type =>
      some ("definition " ++ processor ++ " '" ++ name ++ "' " ++ type.short)
  | .named bean name => some ("name " ++ bean.label ++ " '" ++ name ++ "'")
  | .acquainted bean container => some ("factory " ++ bean.label ++ " " ++ container)
  | .before processor name bean =>
      some ("before " ++ processor ++ " '" ++ name ++ "' " ++ bean.label)
  | .started bean => some ("init " ++ bean.label)
  | .after processor name bean =>
      some ("after " ++ processor ++ " '" ++ name ++ "' " ++ bean.label)
  | .notified bean => some ("smart " ++ bean.label)
  | .destroyed bean name => some ("destroy " ++ bean.label ++ " '" ++ name ++ "'")
  | .constructed .. | .entered .. | .resolved .. | .wired .. | .committed .. | .abandoned ..
  | .handedOut .. => none

end Event
end BeanContainer
