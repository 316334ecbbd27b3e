import BeanContainer.Container.Eager

/-!
# Assembling a container

A container is assembled from properties and a list of registrations.  The
properties are set first, then the registrations are applied in their order, and
last the singletons are created.
-/

namespace BeanContainer

/-- One step of assembling a container. -/
inductive Registration where
  | named (name : String) (definition : Definition)
  /-- A declaration with nothing but a type, its fields and its methods, registered
  under the type's own name. -/
  | component (declaration : Declaration)
  | existing (name : String) (bean : Bean)
  /-- A processor, which is handed over to the container. -/
  | processing (processor : Processor)

/-- What a container is assembled from. -/
structure Assembly where
  properties : PropertyStore := {}
  /-- Properties that are set before anything is registered. -/
  values : List (String × Document) := []
  registrations : List Registration := []

namespace Registration

def apply (registration : Registration) (container : Container) : Except BeanError Container :=
  match registration with
  | .named name definition => container.register name definition
  | .component declaration => do
      let definition ← declaration.define
      container.register definition.name definition
  | .existing name bean => container.registerSingleton name bean
  | .processing processor => .ok (container.addOwnedProcessor processor)

end Registration

namespace Assembly

/-- The container with everything registered in order, without beans of its own. -/
def assemble (assembly : Assembly) (heap : Heap) : Except BeanError Container :=
  let properties := assembly.values.foldl
    (fun store entry => store.set entry.1 entry.2) assembly.properties
  assembly.registrations.foldlM (fun container registration => registration.apply container)
    (Container.new properties heap)

/-- The assembled container with its singletons created within a time limit, or
the error and what has become of the heap. -/
def build (assembly : Assembly) (heap : Heap) (limit : Option Nat := none) :
    Except BeanError Container × Heap :=
  match assembly.assemble heap with
  | .error error => (.error error, heap)
  | .ok container =>
      match (Container.preInstantiate limit).run container with
      | (.ok (), built) => (.ok built, built.heap)
      | (.error error, built) => (.error error, built.heap)

end Assembly
end BeanContainer
