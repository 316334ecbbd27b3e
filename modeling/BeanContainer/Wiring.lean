import BeanContainer.Heap

/-!
# Writing resolved values into cells

The values collected for a bean are written field by field, in the order of the
injection points.  Each write takes its value out of the supply; the first write
that fails ends the run, and the values of later fields stay in the supply.
-/

namespace BeanContainer

namespace InjectionPoint

/-- Writes a value into the cell of the point.  The type of the bean is checked
first, then the type of the value, and a cell is never written twice. -/
def write (point : InjectionPoint) (target : Bean) (value : Value) (heap : Heap) :
    Except BeanError Heap :=
  match point.cell with
  | none => .error (.invalid (.noCell point.name))
  | some cell =>
      match target with
      | .proxy .. => .error (.invalid (.wrongTarget point.name cell.owner.text))
      | .plain record =>
          if record.type ≠ cell.owner then
            .error (.invalid (.wrongTarget point.name cell.owner.text))
          else if value.type ≠ point.type then
            .error (.invalid (.wrongValue point.name point.type.name))
          else
            match heap.fill? record cell.name value with
            | some written => .ok written
            | none => .error (.alreadyWired point.name)

end InjectionPoint

namespace Supply

/-- Writes the collected values into the cells of the target.  A point without a
value is passed over. -/
def write (target : Bean) :
    List InjectionPoint → Supply → Heap → Except BeanError Unit × Supply × Heap
  | [], supply, heap => (.ok (), supply, heap)
  | point :: points, supply, heap =>
      match supply.find? point.index with
      | none => write target points supply heap
      | some value =>
          let rest := supply.erase point.index
          match point.write target value heap with
          | .ok written => write target points rest written
          | .error error => (.error error, rest, heap)

/-- Writes the collected values and drops what is left of them. -/
def wire (supply : Supply) (target : Bean) (points : List InjectionPoint) : HeapM Unit := do
  let (result, _, heap) := write target points supply (← get)
  set heap
  result

end Supply
end BeanContainer
