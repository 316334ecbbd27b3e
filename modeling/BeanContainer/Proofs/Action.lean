import BeanContainer.Container.Basic

/-!
# Running actions

An action takes a state to a result and another state.  This module says what
actions built from smaller ones do when they are run, and carries two kinds of
facts from the parts to the whole: how the states before and after are related,
and that two actions agree on a class of states which they do not leave.
-/

namespace BeanContainer
namespace Running

variable {ε σ α β : Type}

@[simp] theorem pure_apply (value : α) (state : σ) :
    (pure value : ExceptT ε (StateM σ) α) state = (.ok value, state) := rfl

@[simp] theorem throw_apply (error : ε) (state : σ) :
    (throw error : ExceptT ε (StateM σ) α) state = (.error error, state) := rfl

@[simp] theorem get_apply (state : σ) :
    (get : ExceptT ε (StateM σ) σ) state = (.ok state, state) := rfl

@[simp] theorem modify_apply (change : σ → σ) (state : σ) :
    (modify change : ExceptT ε (StateM σ) PUnit) state = (.ok ⟨⟩, change state) := rfl

@[simp] theorem modifyGet_apply (change : σ → α × σ) (state : σ) :
    (modifyGet change : ExceptT ε (StateM σ) α) state =
      (.ok (change state).1, (change state).2) := rfl

/-- A finished result as an action leaves the state as it was. -/
@[simp] theorem liftM_apply (result : Except ε α) (state : σ) :
    (liftM result : ExceptT ε (StateM σ) α) state = (result, state) := by
  cases result with
  | ok value => rfl
  | error error => rfl

/-- The second action runs in the state that the first one left, unless the first
one failed. -/
theorem bind_apply (action : ExceptT ε (StateM σ) α) (next : α → ExceptT ε (StateM σ) β)
    (state : σ) :
    (action >>= next) state =
      match action state with
      | (.ok value, middle) => next value middle
      | (.error error, middle) => (.error error, middle) := by
  show (match action state with
    | (result, middle) => ExceptT.bindCont next result middle) = _
  rcases action state with ⟨result, middle⟩
  cases result with
  | ok value => rfl
  | error error => rfl

theorem bind_apply_ok {action : ExceptT ε (StateM σ) α} {next : α → ExceptT ε (StateM σ) β}
    {state middle : σ} {value : α} (first : action state = (.ok value, middle)) :
    (action >>= next) state = next value middle := by
  rw [bind_apply, first]

theorem bind_apply_error {action : ExceptT ε (StateM σ) α}
    {next : α → ExceptT ε (StateM σ) β} {state middle : σ} {error : ε}
    (first : action state = (.error error, middle)) :
    (action >>= next) state = (.error error, middle) := by
  rw [bind_apply, first]

/-- A sequence of two actions succeeds with the result of the second. -/
theorem of_bind_apply_ok {action : ExceptT ε (StateM σ) α} {next : α → ExceptT ε (StateM σ) β}
    {state final : σ} {result : β} (done : (action >>= next) state = (.ok result, final)) :
    ∃ value middle, action state = (.ok value, middle) ∧
      next value middle = (.ok result, final) := by
  rw [bind_apply] at done
  generalize action state = outcome at done
  obtain ⟨first, middle⟩ := outcome
  cases first with
  | error error => cases done
  | ok value => exact ⟨value, middle, rfl, done⟩

theorem map_apply (change : α → β) (action : ExceptT ε (StateM σ) α) (state : σ) :
    (change <$> action) state = ((action state).1.map change, (action state).2) := by
  show (match action state with
    | (result, middle) => ((match result with
        | .ok value => pure (.ok (change value))
        | .error error => pure (.error error) : StateM σ (Except ε β)) middle)) = _
  rcases action state with ⟨result, middle⟩
  cases result with
  | ok value => rfl
  | error error => rfl

/-- A handler runs in the state that the failed action left. -/
theorem tryCatch_apply (action : ExceptT ε (StateM σ) α)
    (handle : ε → ExceptT ε (StateM σ) α) (state : σ) :
    (tryCatch action handle) state =
      match action state with
      | (.ok value, middle) => (.ok value, middle)
      | (.error error, middle) => handle error middle := by
  show (match action state with
    | (result, middle) => ((match result with
        | .ok value => pure (.ok value)
        | .error error => handle error : StateM σ (Except ε α)) middle)) = _
  rcases action state with ⟨result, middle⟩
  cases result with
  | ok value => rfl
  | error error => rfl

/-! ## How the states before and after are related -/

/-- Whatever the action comes to, it leaves a state that is related to the one it
was run in. -/
def Moves (relation : σ → σ → Prop) (action : ExceptT ε (StateM σ) α) : Prop :=
  ∀ state, relation state (action state).2

namespace Moves

variable {relation : σ → σ → Prop}

theorem pure (refl : ∀ state, relation state state) (value : α) :
    Moves relation (pure value : ExceptT ε (StateM σ) α) := refl

theorem throw (refl : ∀ state, relation state state) (error : ε) :
    Moves relation (throw error : ExceptT ε (StateM σ) α) := refl

theorem bind (trans : ∀ {first second third}, relation first second →
      relation second third → relation first third)
    {action : ExceptT ε (StateM σ) α} {next : α → ExceptT ε (StateM σ) β}
    (before : Moves relation action) (after : ∀ value, Moves relation (next value)) :
    Moves relation (action >>= next) := by
  intro state
  have moved := before state
  rw [bind_apply]
  generalize action state = outcome at moved ⊢
  obtain ⟨result, middle⟩ := outcome
  cases result with
  | ok value => exact trans moved (after value middle)
  | error error => exact moved

theorem tryCatch (trans : ∀ {first second third}, relation first second →
      relation second third → relation first third)
    {action : ExceptT ε (StateM σ) α} {handle : ε → ExceptT ε (StateM σ) α}
    (before : Moves relation action) (after : ∀ error, Moves relation (handle error)) :
    Moves relation (tryCatch action handle) := by
  intro state
  have moved := before state
  rw [tryCatch_apply]
  generalize action state = outcome at moved ⊢
  obtain ⟨result, middle⟩ := outcome
  cases result with
  | ok value => exact moved
  | error error => exact trans moved (after error middle)

end Moves

/-! ## Agreement on a class of states -/

/-- On the states of the class the actions do the same, and they end in the class. -/
def Agree (within : σ → Prop) (action other : ExceptT ε (StateM σ) α) : Prop :=
  ∀ state, within state → other state = action state ∧ within (action state).2

namespace Agree

variable {within : σ → Prop}

/-- An action that leaves every state alone agrees with itself. -/
theorem still {action : ExceptT ε (StateM σ) α} (unchanged : ∀ state, (action state).2 = state) :
    Agree within action action := by
  intro state inside
  rw [unchanged]
  exact ⟨rfl, inside⟩

theorem bind {action other : ExceptT ε (StateM σ) α} {next later : α → ExceptT ε (StateM σ) β}
    (first : Agree within action other) (rest : ∀ value, Agree within (next value) (later value)) :
    Agree within (action >>= next) (other >>= later) := by
  intro state inside
  obtain ⟨same, stays⟩ := first state inside
  rw [bind_apply, bind_apply, same]
  generalize action state = outcome at stays ⊢
  obtain ⟨result, middle⟩ := outcome
  cases result with
  | ok value => exact rest value middle stays
  | error error => exact ⟨rfl, stays⟩

theorem map (change : α → β) {action other : ExceptT ε (StateM σ) α}
    (first : Agree within action other) : Agree within (change <$> action) (change <$> other) := by
  intro state inside
  obtain ⟨same, stays⟩ := first state inside
  rw [map_apply, map_apply, same]
  exact ⟨rfl, stays⟩

end Agree

end Running
end BeanContainer
