/-
This file says which actions keep something of the state that they act on. An action on a register
window keeps what every access to the window keeps, be it a request, the claim or the release.
-/

import NicScope.Proofs.Device.RequestCourse

namespace NicScope

variable {σ α β : Type}

/-! ### Actions that keep something -/

/-- An action that keeps something of the state. -/
def Keeps (good : σ → Prop) (action : StateM σ α) : Prop :=
  ∀ state, good state → good (action state).2

namespace Keeps

variable {good : σ → Prop}

protected theorem bind {action : StateM σ α} {next : α → StateM σ β} (first : Keeps good action)
    (second : ∀ given, Keeps good (next given)) : Keeps good (action >>= next) :=
  fun state here => second _ _ (first state here)

theorem step {κ : Type} {first : ExceptT κ (StateM σ) α} {next : α → ExceptT κ (StateM σ) β}
    (one : Keeps good first.run) (other : ∀ given, Keeps good (next given).run) :
    Keeps good (first >>= next).run := by
  change Keeps good (first.run >>= ExceptT.bindCont next)
  refine .bind one fun given => ?_
  cases given with
  | ok given => exact other given
  | error cause => exact fun _ here => here

end Keeps

/-! ### Windows -/

/-- A window all of whose accesses keep something of its state. -/
structure Window.Keeps (good : σ → Prop) (window : Window σ) : Prop where
  read : ∀ register, NicScope.Keeps good (window.read register)
  write : ∀ register value, NicScope.Keeps good (window.write register value)

namespace Window.Keeps

variable {good : σ → Prop} {window : Window σ} (keeps : window.Keeps good)

include keeps

theorem performs {accesses : List Access} {state final : σ} (here : good state)
    (performs : window.Performs state accesses final) : good final := by
  induction accesses generalizing state with
  | nil =>
    obtain rfl : final = state := performs
    exact here
  | cons access later inductionHypothesis =>
    cases access with
    | read register value => exact inductionHypothesis (keeps.read register state here) performs.2
    | write register value =>
      exact inductionHypothesis (keeps.write register value state here) performs

theorem request (polls : Nat) (query : Query) :
    NicScope.Keeps good (window.request polls query) :=
  fun state here => keeps.performs here (window.request_course polls query state).1

theorem claim (process : UInt32) : NicScope.Keeps good (window.claim process) := by
  refine .bind (keeps.write _ _) fun _ => .bind (keeps.write _ _) fun _ =>
    .bind (keeps.write _ _) fun _ => fun state here => ?_
  obtain ⟨_, _, performs, _⟩ := window.follows_writeFrom 0 (List.replicate Register.doorbell 0)
    state []
  exact keeps.performs here performs

theorem release : NicScope.Keeps good window.release := by
  refine .bind (keeps.read _) fun flag => ?_
  split
  · exact .bind (keeps.write _ _) fun _ => keeps.write _ _
  · exact fun _ here => here

end Window.Keeps

end NicScope
