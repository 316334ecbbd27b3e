import BeanContainer.Container.Assembly
import BeanContainer.Definition.Outline
import BeanContainer.Property.Reader
import BeanContainer.Proofs.Action
import BeanContainer.Proofs.Request.Answers
import BeanContainer.Proofs.Request.Resolving
import BeanContainer.Proofs.Request.Cases
import BeanContainer.Proofs.Request.Bookkeeping
import BeanContainer.Proofs.Heap.Extension
import BeanContainer.Proofs.Heap.Wiring
import BeanContainer.Container.Run
import BeanContainer.Proofs.Run.Effects
import BeanContainer.Proofs.Request.Nesting
import BeanContainer.Proofs.Request.Depth
import BeanContainer.Proofs.Run.Rest
import BeanContainer.Proofs.Request.Steps
import BeanContainer.Proofs.Run.Ledger
import BeanContainer.Proofs.Request.Growth
import BeanContainer.Proofs.Run.Injection
import BeanContainer.Proofs.Run.Identity
import BeanContainer.Proofs.Run.Abandonment
import BeanContainer.Proofs.Heap.Blame
import BeanContainer.Proofs.Heap.Passes
import BeanContainer.Proofs.Request.Circular
import BeanContainer.Proofs.Run.Circularity
import BeanContainer.Proofs.Request.Traps
import BeanContainer.Proofs.Run.Rejection
import BeanContainer.Proofs.Heap.Cells
import BeanContainer.Proofs.Heap.Filling
import BeanContainer.Proofs.Request.Fields
import BeanContainer.Proofs.Request.Population
import BeanContainer.Proofs.Run.Population
import BeanContainer.Proofs.Heap.Finishing
import BeanContainer.Proofs.Wiring
import BeanContainer.Proofs.Request.Resolvable
import BeanContainer.Proofs.Request.Consistency
import BeanContainer.Proofs.Request.Fulfillment
import BeanContainer.Proofs.Request.Success
import BeanContainer.Proofs.Run.Order
import BeanContainer.Proofs.Heap.Turns
import BeanContainer.Proofs.Request.Courses
import BeanContainer.Proofs.Request.Unwired
import BeanContainer.Proofs.Run.Processors
import BeanContainer.Proofs.Run.Lifecycle
import BeanContainer.Proofs.Request.Constructions
import BeanContainer.Proofs.Run.Constructions
import BeanContainer.Proofs.Request.Failures
import BeanContainer.Proofs.Run.Typing
import BeanContainer.Proofs.Run.Processing
import BeanContainer.Proofs.Run.Casting
import BeanContainer.Proofs.Run.Destruction
import BeanContainer.Proofs.Run.Handouts
import BeanContainer.Proofs.Request.Prototypes
import BeanContainer.Proofs.Run.Prototypes
import BeanContainer.Proofs.Request.Notices
import BeanContainer.Proofs.Run.Eager
import BeanContainer.Proofs.Property.Documents
import BeanContainer.Proofs.Property.Keys
import BeanContainer.Proofs.Property.Sequences
import BeanContainer.Proofs.Property.Writing
import BeanContainer.Proofs.Property.Overwriting
import BeanContainer.Proofs.Property.Lists
import BeanContainer.Proofs.Reference
import BeanContainer.Proofs.Selection
import BeanContainer.Proofs.Literal
import BeanContainer.Proofs.Property.Conversion
import BeanContainer.Proofs.Property.Reading
import BeanContainer.Proofs.Priority
import BeanContainer.Proofs.Run.Listing
import BeanContainer.Proofs.Declaration
import BeanContainer.Proofs.Calling
import BeanContainer.Proofs.TypeName
