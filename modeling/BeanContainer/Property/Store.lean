import BeanContainer.Property.Conversion
import BeanContainer.Property.Document
import BeanContainer.Table

/-!
# Properties by key

Properties are texts under keys.  A sequence is stored either as one text under
its key or as one text for each of `key[0]`, `key[1]`, …; setting a key replaces
everything that stands below it, in whatever shape it was stored.
-/

namespace BeanContainer

namespace PropertyKey

/-- Whether the other key is the key itself, or continues it with a step into a
document. -/
def isBelow (key other : String) : Bool :=
  match Text.dropFront? key.toList other.toList with
  | none => false
  | some [] => true
  | some (c :: _) => c = '.' || c = '['

/-- The text between the brackets of `key[text]`, for a text without brackets. -/
def index? (key other : String) : Option String := do
  let rest ← Text.dropFront? key.toList other.toList
  let opened ← Text.dropFront? ['['] rest
  let index ← Text.dropBack? [']'] opened
  if '[' ∈ index ∨ ']' ∈ index then none else some (String.ofList index)

end PropertyKey

/-- Texts under keys. -/
structure PropertyStore where
  values : Table String String := .empty
  deriving Inhabited

namespace PropertyStore

/-- The store without properties. -/
def empty : PropertyStore := {}

/-- The store of the given properties, the last one under each key. -/
def ofPairs (pairs : List (String × String)) : PropertyStore := ⟨Table.ofList pairs⟩

/-- The entries `key[text]` as their texts and values. -/
def indexed (key : String) (entries : List (String × String)) : List (String × String) :=
  entries.filterMap fun (other, value) =>
    (PropertyKey.index? key other).map fun index => (index, value)

/-- Reads the index of one entry. -/
def readIndex (key : String) (entry : String × String) : Except PropertyError (Int × String) :=
  match IntegerType.i64.read? entry.1.toList with
  | some index => .ok (index.val, entry.2)
  | none => .error (.invalidIndex key entry.1)

/-- The values of the entries `key[i]`, by ascending index. -/
def elements (key : String) (entries : List (String × String)) :
    Except PropertyError (List String) := do
  let found ← (indexed key entries).mapM (readIndex key)
  return (found.mergeSort fun one other => one.1 ≤ other.1).map (·.2)

/-- The raw values stored for the key in the requested shape, if there are any. -/
def stored? (store : PropertyStore) (shape : Shape) (key : String) :
    Except PropertyError (Option (List String)) :=
  match store.values.find? key with
  | some value => .ok (some [value])
  | none =>
      match shape with
      | .scalar => .ok none
      | .sequence => do
          let values ← elements key store.values.entries
          return if values.isEmpty then none else some values

/-- The raw values a default stands for.  A sequence is split at its commas, and
an empty default is an empty sequence. -/
def ofDefault (shape : Shape) (default : String) : List String :=
  match shape with
  | .scalar => [default]
  | .sequence =>
      if default.isEmpty then []
      else (default.toList.splitOn ',').map String.ofList

/-- The raw values of the key: the stored ones, or else those of the default. -/
def read (store : PropertyStore) (shape : Shape) (key : String) (default : Option String) :
    Except PropertyError (List String) := do
  match ← store.stored? shape key with
  | some values => return values
  | none =>
      match default with
      | some text => return ofDefault shape text
      | none => throw (.notFound key)

/-- Reads the key as the type. -/
def readAs (store : PropertyStore) (type : PropertyType) (key : String)
    (default : Option String) : Except PropertyError type.valueType.Denote := do
  type.convert key (← store.read type.shape key default)

/-- Replaces everything below the key by the leaves of the document. -/
def set (store : PropertyStore) (key : String) (document : Document) : PropertyStore where
  values :=
    (store.values.filterKeys fun other => !PropertyKey.isBelow key other).insertAll
      (document.entries key)

end PropertyStore
end BeanContainer
