import BeanContainer.Container.Eager

/-!
# Runs of operations

Whoever holds a container performs operations on it in any order, and may create
beans of its own between them.  An operation that is refused leaves what it did so
far; its error does not keep the holder from going on.
-/

namespace BeanContainer

/-- What the holder of a container can do between two requests. -/
inductive Operation where
  | register (name : String) (declaration : Declaration)
  | remove (name : String)
  /-- The definitions are visited in the given order from now on. -/
  | arrange (visiting : Visiting)
  | registerSingleton (name : String) (bean : Bean)
  | addProcessor (processor : Processor)
  | addOwnedProcessor (processor : Processor)
  | registerScope (name scope : String)
  | setProperty (key : String) (document : Document)
  | request (name : String)
  | requestAs (name : String) (target : TypeName)
  | preInstantiate (limit : Option Nat)
  | destroy
  /-- A bean is created outside of the container. -/
  | create (type : TypeName) (arguments : List Value) (cells : List (String × Value))
  /-- Beans of the type behave in the given way from now on. -/
  | setBehaviour (type : TypeName) (behaviour : Behaviour)

namespace Operation

/-- The container after the operation, whether it succeeded or not. -/
def perform : Operation → Container → Container
  | .register name declaration, container =>
      match declaration.define with
      | .ok definition => (container.register name definition).toOption.getD container
      | .error _ => container
  | .remove name, container => (container.remove name).toOption.getD container
  | .arrange visiting, container => container.arrange visiting
  | .registerSingleton name bean, container =>
      (container.registerSingleton name bean).toOption.getD container
  | .addProcessor processor, container => container.addProcessor processor
  | .addOwnedProcessor processor, container => container.addOwnedProcessor processor
  | .registerScope name scope, container =>
      (container.registerScope name scope).toOption.getD container
  | .setProperty key document, container => container.setProperty key document
  | .request name, container => (Container.request name container).2
  | .requestAs name target, container => (Container.requestAs name target container).2
  | .preInstantiate limit, container => (Container.preInstantiate limit container).2
  | .destroy, container => container.destroy
  | .create type arguments cells, container =>
      { container with heap := (container.heap.create type arguments cells).2 }
  | .setBehaviour type behaviour, container =>
      { container with heap := container.heap.setBehaviour type behaviour }

end Operation

namespace Container

/-- The container after the operations, one after the other. -/
def run (container : Container) (operations : List Operation) : Container :=
  operations.foldl (fun container operation => operation.perform container) container

end Container
end BeanContainer
