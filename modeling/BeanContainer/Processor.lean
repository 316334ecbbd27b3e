import BeanContainer.Wiring

/-!
# Processors of new beans

A processor sees each new bean twice, before and after the callback of a wired
bean, and may answer with another bean: a proxy around the first, a bean created
for the purpose, or any other.  It may also see the definition of each wired
bean.  Processors form a chain: each gets what the one before it answered, one
that declares itself not concerned is passed over, and any other error ends the
pass.
-/

namespace BeanContainer

/-- The answer of a processor for a bean. -/
inductive Verdict where
  /-- Go on with this bean. -/
  | proceed (bean : Bean)
  /-- Create a bean of the type and go on with that. -/
  | replace (type : TypeName)
  /-- Fail, or be passed over if the error only says that nothing applies. -/
  | fail (error : BeanError)

/-- What a processor answers for a bean of some name.  The name and the bean alone
settle it, and all that a processor does to either the container or the beans is
to answer: it writes no cells and asks for nothing. -/
abbrev Hook := (name : String) → Bean → Verdict

/-- A processor with the identity by which it reports and is recognised. -/
structure Processor where
  id : String
  before : Option Hook := none
  after : Option Hook := none
  /-- Whether the processor sees the definitions of wired beans. -/
  inspects : Bool := false

/-- A processor as it stands in a chain. -/
inductive Link where
  /-- The built-in processor, which tells beans their name and gives them a handle
  of their container. -/
  | awareness (container : String)
  /-- A processor that others hold as well, and that may be added again. -/
  | shared (processor : Processor)
  /-- A processor that was handed over to the chain, and is no other one's even if
  the identities agree. -/
  | owned (processor : Processor)

namespace Link

/-- Whether the link is the shared processor of the given identity. -/
def isShared (link : Link) (id : String) : Bool :=
  match link with
  | .shared processor => processor.id = id
  | .awareness _ | .owned _ => false

/-- The processor of the link, unless it is the built-in one. -/
def processor? : Link → Option Processor
  | .awareness _ => none
  | .shared processor | .owned processor => some processor

end Link

/-- The two passes in which processors see a bean. -/
inductive Pass where
  | before
  | after
  deriving DecidableEq, Repr

namespace Processor

/-- The hook that the processor has for the pass. -/
def hook? (processor : Processor) : Pass → Option Hook
  | .before => processor.before
  | .after => processor.after

/-- The event of the processor's turn in the pass. -/
def event (processor : Processor) (pass : Pass) (name : String) (bean : Bean) : Event :=
  match pass with
  | .before => .before processor.id name bean
  | .after => .after processor.id name bean

end Processor

namespace Verdict

/-- Carries out the answer. -/
def carryOut : Verdict → HeapM Bean
  | .proceed bean => pure bean
  | .replace type => HeapM.create type
  | .fail error => throw error

end Verdict

namespace Processor

/-- The turn of the processor in a pass. -/
def apply (processor : Processor) (pass : Pass) (name : String) (bean : Bean) : HeapM Bean :=
  match processor.hook? pass with
  | none => return bean
  | some hook => do
      HeapM.note (processor.event pass name bean)
      (hook name bean).carryOut

end Processor

namespace Link

/-- The turn of one link in a pass. -/
def apply (link : Link) (pass : Pass) (name : String) (bean : Bean) : HeapM Bean :=
  match link, pass with
  | .awareness container, .before => do
      modify fun heap => (bean.tellName name heap).getD heap
      modify fun heap => (bean.giveContainer container heap).getD heap
      return bean
  | .awareness _, .after => return bean
  | .shared processor, pass | .owned processor, pass => processor.apply pass name bean

end Link

/-- Processors in the order of their turns. -/
structure Chain where
  links : List Link := []
  deriving Inhabited

namespace Chain

/-- Appends a shared processor; one that is already there moves to the end. -/
def add (chain : Chain) (processor : Processor) : Chain where
  links := (chain.links.filter fun link => !link.isShared processor.id) ++ [.shared processor]

/-- Appends a processor that is handed over to the chain. -/
def addOwned (chain : Chain) (processor : Processor) : Chain where
  links := chain.links ++ [.owned processor]

/-- The chain of the given shared processors, added one after the other. -/
def ofList (processors : List Processor) : Chain := processors.foldl add {}

/-- The chain of a container, where the built-in processor comes first. -/
def ofContainer (container : String) : Chain := ⟨[.awareness container]⟩

/-- Passes the bean through the links.  A link that is not concerned leaves it as
it was. -/
def passLinks (pass : Pass) (name : String) : List Link → Bean → HeapM Bean
  | [], bean => return bean
  | link :: links, bean => do
      let next ← tryCatch (link.apply pass name bean) fun error =>
        if error.isDeclined then return bean else throw error
      passLinks pass name links next

/-- One pass of the bean through the chain. -/
def pass (chain : Chain) (pass : Pass) (name : String) (bean : Bean) : HeapM Bean :=
  passLinks pass name chain.links bean

/-- Shows the definition of a wired bean to the processors that look at it. -/
def inspect (chain : Chain) (name : String) (type : TypeName) : HeapM Unit :=
  (chain.links.filterMap Link.processor?).forM fun processor =>
    if processor.inspects then HeapM.note (.inspected processor.id name type) else return

end Chain
end BeanContainer
