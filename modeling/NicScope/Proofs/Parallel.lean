/-
This file says what it means that an action runs in parallel in two states that are related: it
comes to the same in both, and what it leaves is related again. Where one action follows another,
the second has to do so only in the states that the first leaves.
-/

namespace NicScope

variable {σ κ α β : Type}

/-- An action that comes to the same in two states and leaves them related. -/
structure Parallel (related : σ → σ → Prop) (action : StateM σ α) (first second : σ) : Prop where
  result : (action second).1 = (action first).1
  agree : related (action first).2 (action second).2

namespace Parallel

variable {related : σ → σ → Prop} {first second : σ}

protected theorem pure (result : α) (agree : related first second) :
    Parallel related (pure result) first second :=
  ⟨rfl, agree⟩

protected theorem bind {action : StateM σ α} {next : α → StateM σ β}
    (one : Parallel related action first second)
    (rest : ∀ given, (action first).1 = given →
      Parallel related (next given) (action first).2 (action second).2) :
    Parallel related (action >>= next) first second := by
  obtain ⟨result, agree⟩ := rest _ rfl
  have goes : (action >>= next) second = next (action first).1 (action second).2 :=
    congrArg (fun given => next given (action second).2) one.result
  constructor
  · rw [goes]
    exact result
  · rw [goes]
    exact agree

/-- One action after another that may both fail; the second is not done if the first fails. -/
theorem step {action : ExceptT κ (StateM σ) α} {next : α → ExceptT κ (StateM σ) β}
    (one : Parallel related action.run first second)
    (rest : ∀ given, (action.run first).1 = .ok given →
      Parallel related (next given).run (action.run first).2 (action.run second).2) :
    Parallel related (action >>= next).run first second := by
  change Parallel related (action.run >>= ExceptT.bindCont next) first second
  refine one.bind fun given ended => ?_
  cases given with
  | ok given => exact rest given ended
  | error cause => exact .pure (Except.error cause) one.agree

/-- An action that is the same as another one in both states. -/
theorem of_eq {action goes : StateM σ α} (one : action first = goes first)
    (other : action second = goes second) (parallel : Parallel related goes first second) :
    Parallel related action first second := by
  constructor
  · rw [one, other]
    exact parallel.result
  · rw [one, other]
    exact parallel.agree

end Parallel

end NicScope
