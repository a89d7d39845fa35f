/-
Dialogues. A dialogue asks one question after another, each of which may depend
on the answers so far, leaves log records on its way and ends with a result. It
does not say who answers: it can be run against a device, a script or a recorder,
and its questions can be put into other words before that.
-/

import NicScope.Log

namespace NicScope

/-- A course of questions and answers that ends with an `α`. -/
inductive Dialogue (Question Answer α : Type) where
  | done (result : α)
  | ask (question : Question) (next : Answer → Dialogue Question Answer α)
  | tell (record : LogRecord) (next : Dialogue Question Answer α)

namespace Dialogue

variable {Question Answer Question' Answer' α β σ : Type}

/-- Goes on with `next` once the dialogue has ended. -/
def bind (dialogue : Dialogue Question Answer α) (next : α → Dialogue Question Answer β) :
    Dialogue Question Answer β :=
  match dialogue with
  | done result => next result
  | ask question continuation => ask question fun answer => (continuation answer).bind next
  | tell record continuation => tell record (continuation.bind next)

instance : Monad (Dialogue Question Answer) where
  pure := done
  bind := bind

/-- Leaves a single log record. -/
def note (record : LogRecord) : Dialogue Question Answer Unit :=
  tell record (done ())

/-- Puts every question into other words: `rephrase` holds a dialogue of its own to
find the answer. -/
def reword (rephrase : Question → Dialogue Question' Answer' Answer) :
    Dialogue Question Answer α → Dialogue Question' Answer' α
  | done result => done result
  | ask question next => (rephrase question).bind fun answer => (next answer).reword rephrase
  | tell record next => tell record (next.reword rephrase)

/-- Runs a dialogue in a state that `answer` and `log` may change. -/
def run (answer : Question → σ → Answer × σ) (log : LogRecord → σ → σ) :
    Dialogue Question Answer α → σ → α × σ
  | done result, state => (result, state)
  | ask question next, state =>
    let (given, state) := answer question state
    (next given).run answer log state
  | tell record next, state => next.run answer log (log record state)

/-! ### Laws -/

theorem bind_done (dialogue : Dialogue Question Answer α) : dialogue.bind done = dialogue := by
  induction dialogue with
  | done result => rfl
  | ask question next inductionHypothesis => simp only [bind, inductionHypothesis]
  | tell record next inductionHypothesis => simp only [bind, inductionHypothesis]

theorem bind_bind {γ : Type} (dialogue : Dialogue Question Answer α)
    (next : α → Dialogue Question Answer β) (last : β → Dialogue Question Answer γ) :
    (dialogue.bind next).bind last = dialogue.bind fun result => (next result).bind last := by
  induction dialogue with
  | done result => rfl
  | ask question continuation inductionHypothesis => simp only [bind, inductionHypothesis]
  | tell record continuation inductionHypothesis => simp only [bind, inductionHypothesis]

/-- A dialogue that goes on is run in the state that its first part leaves. -/
theorem run_bind (answer : Question → σ → Answer × σ) (log : LogRecord → σ → σ)
    (dialogue : Dialogue Question Answer α) (next : α → Dialogue Question Answer β) (state : σ) :
    (dialogue.bind next).run answer log state =
      (next (dialogue.run answer log state).1).run answer log
        (dialogue.run answer log state).2 := by
  induction dialogue generalizing state with
  | done result => rfl
  | ask question continuation inductionHypothesis =>
    simp only [bind, run, inductionHypothesis]
  | tell record continuation inductionHypothesis =>
    simp only [bind, run, inductionHypothesis]

end Dialogue

end NicScope
