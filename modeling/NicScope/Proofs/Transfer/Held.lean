/-
This file says how a dialogue can be held, whoever answers: with which steps, each a question
with its answer, and with what result. Where the answers of the steps are recited, the dialogue
runs as they say; where the steps are recorded, the record of a run shows how it was held. A
dialogue that goes on is held part by part, and one in other words is held as the one it was.
-/

import NicScope.Proofs.Recording
import NicScope.Proofs.Transfer.Transcript

namespace NicScope.Dialogue

variable {Question Answer Question' Answer' α β : Type}

/-- A dialogue can be held with these steps, and then ends with this result. -/
inductive Held : Dialogue Question Answer α → List (Question × Answer) → α → Prop
  | done {result : α} : Held (.done result) [] result
  | ask {question : Question} {next : Answer → Dialogue Question Answer α} {answer : Answer}
      {later : List (Question × Answer)} {result : α} (rest : Held (next answer) later result) :
      Held (.ask question next) ((question, answer) :: later) result
  | tell {record : LogRecord} {next : Dialogue Question Answer α}
      {steps : List (Question × Answer)} {result : α} (rest : Held next steps result) :
      Held (.tell record next) steps result

/-- Whoever answers, the dialogue is held with its transcript. -/
theorem held_transcript {σ : Type} (answer : Question → σ → Answer × σ)
    (log : LogRecord → σ → σ) (dialogue : Dialogue Question Answer α) (state : σ) :
    dialogue.Held (dialogue.transcript answer log state) (dialogue.result answer log state) := by
  induction dialogue generalizing state with
  | done result => exact .done
  | ask question next inductionHypothesis => exact .ask (inductionHypothesis _ _)
  | tell record next inductionHypothesis => exact .tell (inductionHypothesis _)

/-! ### Recited answers -/

/-- Gives answers one after another, whatever is asked, and when there are no more the `last`
one. -/
def reciting (last : Answer) (_ : Question) : List Answer → Answer × List Answer
  | [] => (last, [])
  | answer :: later => (answer, later)

namespace Held

variable {dialogue : Dialogue Question Answer α} {steps : List (Question × Answer)} {result : α}

/-- Steps are taken where their answers are recited. -/
theorem recited (held : dialogue.Held steps result) (last : Answer) :
    dialogue.transcript (reciting last) (fun _ answers => answers) (steps.map Prod.snd) = steps ∧
      dialogue.result (reciting last) (fun _ answers => answers) (steps.map Prod.snd) =
        result := by
  induction held with
  | done => exact ⟨rfl, rfl⟩
  | ask _ inductionHypothesis =>
    exact ⟨congrArg (List.cons _) inductionHypothesis.1, inductionHypothesis.2⟩
  | tell _ inductionHypothesis => exact inductionHypothesis

/-- What a dialogue ends with is decided by the steps. -/
theorem unique {other : α} (held : dialogue.Held steps result)
    (again : dialogue.Held steps other) : result = other := by
  induction held with
  | done =>
    cases again with
    | done => rfl
  | ask _ inductionHypothesis =>
    cases again with
    | ask rest => exact inductionHypothesis rest
  | tell _ inductionHypothesis =>
    cases again with
    | tell rest => exact inductionHypothesis rest

/-! ### Continuing and rewording -/

/-- A dialogue that goes on is held in two parts. -/
theorem of_bind {next : α → Dialogue Question Answer β} {final : β}
    (held : (dialogue.bind next).Held steps final) :
    ∃ before later given, steps = before ++ later ∧ dialogue.Held before given ∧
      (next given).Held later final := by
  induction dialogue generalizing steps with
  | done result => exact ⟨[], steps, result, rfl, .done, held⟩
  | ask question continuation inductionHypothesis =>
    cases held with
    | ask rest =>
      obtain ⟨before, later, given, rfl, first, second⟩ := inductionHypothesis _ rest
      exact ⟨_ :: before, later, given, rfl, .ask first, second⟩
  | tell record continuation inductionHypothesis =>
    cases held with
    | tell rest =>
      obtain ⟨before, later, given, rfl, first, second⟩ := inductionHypothesis rest
      exact ⟨before, later, given, rfl, .tell first, second⟩

/-- Where only the result is changed afterwards, the steps stay. -/
theorem of_bind_done {change : α → β} {final : β}
    (held : (dialogue.bind fun result => .done (change result)).Held steps final) :
    ∃ given, dialogue.Held steps given ∧ final = change given := by
  obtain ⟨before, later, given, rfl, first, second⟩ := held.of_bind
  cases second with
  | done =>
    rw [List.append_nil]
    exact ⟨given, first, rfl⟩

/-- A dialogue each of whose questions is put as one other question is held as it was, with
its questions put into those and the answers taken as they are heard. -/
theorem of_reword {question : Question' → Question} {hear : Question' → Answer → Answer'}
    {rephrase : Question' → Dialogue Question Answer Answer'}
    (single : ∀ wanted, rephrase wanted =
      .ask (question wanted) fun answer => .done (hear wanted answer))
    {inner : Dialogue Question' Answer' α} (held : (inner.reword rephrase).Held steps result) :
    ∃ asked : List (Question' × Answer),
      steps = asked.map (fun step => (question step.1, step.2)) ∧
        inner.Held (asked.map fun step => (step.1, hear step.1 step.2)) result := by
  induction inner generalizing steps with
  | done value =>
    cases held with
    | done => exact ⟨[], rfl, .done⟩
  | ask wanted next inductionHypothesis =>
    rw [reword, single] at held
    cases held with
    | @ask _ _ answer _ _ rest =>
      obtain ⟨asked, rfl, held⟩ := inductionHypothesis _ rest
      exact ⟨(wanted, answer) :: asked, rfl, .ask held⟩
  | tell record next inductionHypothesis =>
    cases held with
    | tell rest =>
      obtain ⟨asked, rfl, held⟩ := inductionHypothesis rest
      exact ⟨asked, rfl, .tell held⟩

end Held

/-! ### Recorded steps -/

/-- Where each question is recorded with its answer, a run is recorded as the steps with which
the dialogue is held. -/
theorem recorded_run {σ σ' ε : Type} {keep : σ → List ε → σ'}
    {answer : Question → σ → Answer × σ} {answerTwin : Question → σ' → Answer × σ'}
    {log : LogRecord → σ → σ} {logTwin : LogRecord → σ' → σ'} (event : Question × Answer → ε)
    (asks : ∀ question state past, answerTwin question (keep state past) =
      ((answer question state).1, keep (answer question state).2
        (past ++ [event (question, (answer question state).1)])))
    (tells : ∀ record state past, logTwin record (keep state past) = keep (log record state) past)
    (dialogue : Dialogue Question Answer α) :
    Recorded keep (dialogue.run answer log) (dialogue.run answerTwin logTwin)
      fun _ events result _ => ∃ steps, events = steps.map event ∧ dialogue.Held steps result := by
  induction dialogue with
  | done result =>
    refine (Recorded.pure keep result).mono ?_
    rintro _ _ _ _ ⟨rfl, rfl, _⟩
    exact ⟨[], rfl, .done⟩
  | ask question next inductionHypothesis =>
    intro state past
    obtain ⟨_, ran, steps, rfl, held⟩ :=
      inductionHypothesis (answer question state).1 (answer question state).2
        (past ++ [event (question, (answer question state).1)])
    refine ⟨_, ?_, (question, _) :: steps, rfl, .ask held⟩
    rw [run, asks]
    rw [List.append_assoc] at ran
    exact ran
  | tell record next inductionHypothesis =>
    intro state past
    obtain ⟨_, ran, steps, rfl, held⟩ := inductionHypothesis (log record state) past
    refine ⟨_, ?_, steps, rfl, .tell held⟩
    rw [run, tells]
    exact ran

end NicScope.Dialogue
