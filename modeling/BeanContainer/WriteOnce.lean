/-!
# Cells that are written once

A wired field is a cell that starts unset and keeps the first value written to
it.  Its bean may already be handed out while the cell is still unset.
-/

namespace BeanContainer

universe u

/-- A cell that is unset or holds the first value written to it. -/
structure WriteOnce (α : Type u) where
  content : Option α := none
  deriving DecidableEq, Repr

namespace WriteOnce

variable {α : Type u}

def unset : WriteOnce α := {}

def holding (value : α) : WriteOnce α := ⟨some value⟩

def get? (cell : WriteOnce α) : Option α := cell.content

def isSet (cell : WriteOnce α) : Bool := cell.content.isSome

/-- Writes a value; a cell that is already set hands it back. -/
def set (cell : WriteOnce α) (value : α) : Except α (WriteOnce α) :=
  match cell.content with
  | none => .ok (holding value)
  | some _ => .error value

/-- The content, or the complaint about an unset cell of the named type. -/
def read (cell : WriteOnce α) (type : String) : Except String α :=
  match cell.content with
  | some value => .ok value
  | none => .error ("Inject<" ++ type ++ "> accessed before it was wired")

/-- The cell as text, given the text of its content. -/
def describe (cell : WriteOnce α) (text : α → String) : String :=
  match cell.content with
  | some value => "Inject(" ++ text value ++ ")"
  | none => "Inject(<unset>)"

/-- A write succeeds just on an unset cell, which then holds the value. -/
theorem set_eq_ok_iff {cell written : WriteOnce α} {value : α} :
    cell.set value = .ok written ↔ cell = unset ∧ written = holding value := by
  obtain ⟨content⟩ := cell
  cases content <;> simp [set, unset, eq_comm]

end WriteOnce
end BeanContainer
