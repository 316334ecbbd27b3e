import BeanContainer.Container.Resolution

/-!
# Operations between requests

Registering definitions, finished beans, processors and custom scopes, choosing
the order in which definitions are visited, setting properties, and ending the
life of the beans.
-/

namespace BeanContainer
namespace Container

/-- Registers a definition under a name. -/
def register (container : Container) (name : String) (definition : Definition) :
    Except BeanError Container :=
  (container.registry.register name definition).map fun registry => { container with registry }

/-- Removes a definition.  Beans that were made of it stay. -/
def remove (container : Container) (name : String) : Except BeanError Container :=
  (container.registry.remove name).map fun registry => { container with registry }

/-- From now on the definitions are visited in another order. -/
def arrange (container : Container) (visiting : Visiting) : Container :=
  { container with registry := container.registry.arrange visiting }

/-- Keeps a bean that exists already as a singleton, seen as its own type only. -/
def registerSingleton (container : Container) (name : String) (bean : Bean) :
    Except BeanError Container :=
  if container.singletons.contains name then .error (.duplicateSingleton name)
  else .ok (container.cache name bean (Casts.identity bean.type))

/-- Adds a shared processor for all beans that are made from now on. -/
def addProcessor (container : Container) (processor : Processor) : Container :=
  { container with processors := container.processors.add processor }

/-- Adds a processor that is handed over to the container. -/
def addOwnedProcessor (container : Container) (processor : Processor) : Container :=
  { container with processors := container.processors.addOwned processor }

/-- Registers a custom scope under a name that no scope of the container has, in
place of an older one. -/
def registerScope (container : Container) (name scope : String) : Except BeanError Container :=
  if Scope.isReserved name then .error (.invalid (.reservedScope name))
  else .ok { container with scopes := container.scopes.insert name scope }

/-- The custom scope registered under the name. -/
def scope? (container : Container) (name : String) : Option String := container.scopes.find? name

def setProperty (container : Container) (key : String) (document : Document) : Container :=
  { container with properties := container.properties.set key document }

/-- Tells each bean of its destruction that was last finished under a name. -/
def destroy (container : Container) : Container :=
  { container with
    heap := container.finished.entries.foldl
      (fun heap entry => (entry.2.destroy entry.1 heap).getD heap) container.heap }

end Container

/-! ## Custom scopes -/

namespace CustomScope

/-- The object of the name, made by the action if there is none. -/
def obtain (scope : CustomScope) (object : String) (create : HeapM Bean) :
    HeapM (Bean × CustomScope) :=
  match scope.find? object with
  | some bean => return (bean, scope)
  | none => do
      let bean ← create
      return (bean, scope.insert object bean)

/-- Removes the object of the name from the scope that has the given identity. -/
def remove (scope : CustomScope) (id object : String) : Except BeanError CustomScope :=
  if scope.contains object then .ok (scope.erase object)
  else .error (.definitionNotFound (id ++ "/" ++ object))

end CustomScope
end BeanContainer
