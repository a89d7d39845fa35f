/-
This file says what can be observed of a dialogue while it is held: its result,
and its transcript, the questions it asks with the answers they get. Whoever
answers may keep a state and be anyone at all, so a statement about every way of
answering is a statement about every behaviour of the other side.
-/

import NicScope.Transfer.Dialogue

namespace NicScope.Dialogue

variable {Question Answer Question' Answer' α β σ : Type}

/-- What a dialogue ends with. -/
def result (answer : Question → σ → Answer × σ) (log : LogRecord → σ → σ)
    (dialogue : Dialogue Question Answer α) (state : σ) : α :=
  (dialogue.run answer log state).1

/-- The questions that are asked while a dialogue is held, each with its answer. -/
def transcript (answer : Question → σ → Answer × σ) (log : LogRecord → σ → σ) :
    Dialogue Question Answer α → σ → List (Question × Answer)
  | done _, _ => []
  | ask question next, state =>
    (question, (answer question state).1) ::
      (next (answer question state).1).transcript answer log (answer question state).2
  | tell record next, state => next.transcript answer log (log record state)

/-- The answers to questions that are asked one after another. -/
def answersTo (answer : Question → σ → Answer × σ) : List Question → σ → List Answer
  | [], _ => []
  | question :: later, state =>
    (answer question state).1 :: answersTo answer later (answer question state).2

variable (answer : Question → σ → Answer × σ) (log : LogRecord → σ → σ)

/-! ### One step -/

theorem result_ask (question : Question) (next : Answer → Dialogue Question Answer α)
    (state : σ) :
    (ask question next).result answer log state =
      (next (answer question state).1).result answer log (answer question state).2 := rfl

theorem transcript_ask (question : Question) (next : Answer → Dialogue Question Answer α)
    (state : σ) :
    (ask question next).transcript answer log state =
      (question, (answer question state).1) ::
        (next (answer question state).1).transcript answer log (answer question state).2 := rfl

/-! ### Continuing and rewording -/

theorem result_bind (dialogue : Dialogue Question Answer α)
    (next : α → Dialogue Question Answer β) (state : σ) :
    (dialogue.bind next).result answer log state =
      (next (dialogue.result answer log state)).result answer log
        (dialogue.run answer log state).2 := by
  simp only [result, run_bind]

/-- A dialogue put into other words is run as if its questions had been answered by the
dialogues that the other words are. -/
theorem run_reword (rephrase : Question' → Dialogue Question Answer Answer')
    (dialogue : Dialogue Question' Answer' α) (state : σ) :
    (dialogue.reword rephrase).run answer log state =
      dialogue.run (fun question => (rephrase question).run answer log) log state := by
  induction dialogue generalizing state with
  | done value => rfl
  | ask question next inductionHypothesis =>
    simp only [reword, run_bind, run, inductionHypothesis]
  | tell record next inductionHypothesis => simp only [reword, run, inductionHypothesis]

theorem result_reword (rephrase : Question' → Dialogue Question Answer Answer')
    (dialogue : Dialogue Question' Answer' α) (state : σ) :
    (dialogue.reword rephrase).result answer log state =
      dialogue.result (fun question => (rephrase question).run answer log) log state := by
  simp only [result, run_reword]

end NicScope.Dialogue
