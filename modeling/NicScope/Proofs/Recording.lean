/-
This file says what it means that an action is watched. Its twin does the same in a
state that also has a record, and puts what happens at the end of the record. Which
events these are, from which state, with which result and to which state, is told by a
course; where one action follows another, so do their courses.
-/

namespace NicScope

variable {σ σ' ε α β : Type}

/-- What may happen when an action is done: from a state, some events, a result and the
state after it. -/
abbrev Course (σ ε α : Type) := σ → List ε → α → σ → Prop

namespace Course

/-- Nothing happens, and the state stays. -/
def still (result : α) : Course σ ε α := fun state events given final =>
  events = [] ∧ given = result ∧ final = state

/-- One course after another, which may depend on the result of the first. -/
def andThen (first : Course σ ε α) (second : α → Course σ ε β) : Course σ ε β :=
  fun state events result final => ∃ before later given middle,
    events = before ++ later ∧ first state before given middle ∧
      second given middle later result final

end Course

/-- The `twin` of an action, whose state has a record beside it as `keep` says, adds events
to the record that are a course of the action, and does nothing else besides the action. -/
def Recorded (keep : σ → List ε → σ') (action : StateM σ α) (twin : StateM σ' α)
    (course : Course σ ε α) : Prop :=
  ∀ state past, ∃ events,
    twin (keep state past) = ((action state).1, keep (action state).2 (past ++ events)) ∧
      course state events (action state).1 (action state).2

namespace Recorded

variable {keep : σ → List ε → σ'} {action : StateM σ α} {twin : StateM σ' α}
  {course : Course σ ε α}

protected theorem pure (keep : σ → List ε → σ') (result : α) :
    Recorded keep (pure result) (pure result) (.still result) := by
  intro state past
  refine ⟨[], ?_, rfl, rfl, rfl⟩
  rw [List.append_nil]
  rfl

protected theorem bind {next : α → StateM σ β} {nextTwin : α → StateM σ' β}
    {later : α → Course σ ε β} (first : Recorded keep action twin course)
    (second : ∀ result, Recorded keep (next result) (nextTwin result) (later result)) :
    Recorded keep (action >>= next) (twin >>= nextTwin) (course.andThen later) := by
  intro state past
  obtain ⟨before, ran, takes⟩ := first state past
  obtain ⟨behind, goes, follows⟩ :=
    second (action state).1 (action state).2 (past ++ before)
  refine ⟨before ++ behind, ?_, before, behind, _, _, rfl, takes, follows⟩
  rw [← List.append_assoc]
  refine Eq.trans ?_ goes
  exact congrArg (fun step => nextTwin step.1 step.2) ran

/-- The same, for a course of what follows that is told beforehand. -/
theorem bindTo {next : α → StateM σ β} {nextTwin : α → StateM σ' β}
    (later : α → Course σ ε β) (first : Recorded keep action twin course)
    (second : ∀ result, Recorded keep (next result) (nextTwin result) (later result)) :
    Recorded keep (action >>= next) (twin >>= nextTwin) (course.andThen later) :=
  first.bind second

/-- One action after another that may both fail; the second is not done if the first fails. -/
theorem step {κ : Type} {one : ExceptT κ (StateM σ) α} {oneTwin : ExceptT κ (StateM σ') α}
    {course : Course σ ε (Except κ α)} {next : α → ExceptT κ (StateM σ) β}
    {nextTwin : α → ExceptT κ (StateM σ') β} (later : α → Course σ ε (Except κ β))
    (first : Recorded keep one.run oneTwin.run course)
    (second : ∀ given, Recorded keep (next given).run (nextTwin given).run (later given)) :
    Recorded keep (one >>= next).run (oneTwin >>= nextTwin).run
      (course.andThen fun
        | .ok given => later given
        | .error cause => .still (.error cause)) := by
  change Recorded keep (one.run >>= ExceptT.bindCont next)
    (oneTwin.run >>= ExceptT.bindCont nextTwin) _
  refine Recorded.bind first fun given => ?_
  cases given with
  | ok given => exact second given
  | error cause => exact Recorded.pure keep (Except.error cause)

theorem mono {wider : Course σ ε α} (recorded : Recorded keep action twin course)
    (includes : ∀ state events result final,
      course state events result final → wider state events result final) :
    Recorded keep action twin wider := by
  intro state past
  obtain ⟨events, ran, takes⟩ := recorded state past
  exact ⟨events, ran, includes _ _ _ _ takes⟩

/-- What a course says about the result and the state that the action really has. -/
theorem exactly (recorded : Recorded keep action twin course) :
    Recorded keep action twin fun state events result final =>
      course state events result final ∧ (result, final) = action state := by
  intro state past
  obtain ⟨events, ran, takes⟩ := recorded state past
  exact ⟨events, ran, takes, rfl⟩

end Recorded

end NicScope
