/-
This file says what it means that an action of a session keeps away from the peer. Whoever the
peer is, such an action does the same to the host and to the output, comes to the same result and
leaves the peer as it is. So are the actions on the host and on the output, and what is made of
them: the help of a command, a dump and the report of an error.
-/

import NicScope.Proofs.Recording
import NicScope.Tool

namespace NicScope

variable {τ τ' α β : Type}

/-- The same session with another peer. -/
def Session.withPeer (session : Session τ) (peer : τ') : Session τ' :=
  ⟨session.host, session.output, peer⟩

/-- An action that leaves the peer alone; `twin` is the same action where the peer is another. -/
def Aloof (action : StateM (Session τ) α) (twin : StateM (Session τ') α) : Prop :=
  ∀ session peer, (action session).2.peer = session.peer ∧
    twin (session.withPeer peer) = ((action session).1, (action session).2.withPeer peer)

namespace Aloof

protected theorem pure (result : α) :
    Aloof (pure result : StateM (Session τ) α) (pure result : StateM (Session τ') α) :=
  fun _ _ => ⟨rfl, rfl⟩

protected theorem bind {action : StateM (Session τ) α} {twin : StateM (Session τ') α}
    {next : α → StateM (Session τ) β} {nextTwin : α → StateM (Session τ') β}
    (first : Aloof action twin) (second : ∀ given, Aloof (next given) (nextTwin given)) :
    Aloof (action >>= next) (twin >>= nextTwin) := by
  intro session peer
  obtain ⟨stays, ran⟩ := first session peer
  obtain ⟨remains, goes⟩ := second (action session).1 (action session).2 peer
  refine ⟨remains.trans stays, Eq.trans ?_ goes⟩
  exact congrArg (fun step => nextTwin step.1 step.2) ran

/-- One step after another; the second is not taken if the first fails. -/
theorem step {first : Step τ α} {firstTwin : Step τ' α} {next : α → Step τ β}
    {nextTwin : α → Step τ' β} (one : Aloof first.run firstTwin.run)
    (other : ∀ given, Aloof (next given).run (nextTwin given).run) :
    Aloof (first >>= next).run (firstTwin >>= nextTwin).run := by
  change Aloof (first.run >>= ExceptT.bindCont next) (firstTwin.run >>= ExceptT.bindCont nextTwin)
  refine one.bind fun given => ?_
  cases given with
  | ok given => exact other given
  | error cause => exact .pure (Except.error cause)

/-! ### Actions of a session -/

theorem onHost (action : StateM Host α) :
    Aloof (Session.onHost action : StateM (Session τ) α)
      (Session.onHost action : StateM (Session τ') α) :=
  fun _ _ => ⟨rfl, rfl⟩

theorem write (text : String) :
    Aloof (Session.write text : StateM (Session τ) _)
      (Session.write text : StateM (Session τ') _) :=
  fun _ _ => ⟨rfl, rfl⟩

theorem note (record : LogRecord) :
    Aloof (modify (Session.note record) : StateM (Session τ) Unit)
      (modify (Session.note record) : StateM (Session τ') Unit) :=
  fun _ _ => ⟨rfl, rfl⟩

theorem print (text : String) :
    Aloof (Session.print text : Step τ Unit).run (Session.print text : Step τ' Unit).run :=
  .bind (.write text) fun _ => .pure _

theorem dump (dump : Dump) :
    Aloof (dump.print : Step τ Unit).run (dump.print : Step τ' Unit).run := by
  induction dump with
  | nil => exact .pure (Except.ok ())
  | cons piece rest inductionHypothesis =>
    cases piece with
    | text text => exact .step (.print text) fun _ => inductionHypothesis
    | note record =>
      exact .step (.bind (.note record) fun _ => .pure _) fun _ => inductionHypothesis

/-! ### Help and reports -/

theorem explain (command : Command) (cause : Error) :
    Aloof (command.explain cause : StateM (Session τ) Error)
      (command.explain cause : StateM (Session τ') Error) := by
  cases cause with
  | usage text =>
    refine .bind (.write command.help) fun written => ?_
    cases written with
    | ok _ => exact .pure _
    | error failure => exact .pure _
  | _ => exact .pure _

theorem report (cause : Error) :
    Aloof (Tool.report cause : StateM (Session τ) (Except IoError Unit))
      (Tool.report cause : StateM (Session τ') (Except IoError Unit)) :=
  .write (Tool.reportText cause)

theorem conclude (result : Except Error Unit) :
    Aloof (Tool.conclude result : StateM (Session τ) (Option Int))
      (Tool.conclude result : StateM (Session τ') (Option Int)) := by
  cases result with
  | ok _ => exact .pure _
  | error cause =>
    rw [Tool.conclude, Tool.conclude]
    split
    · exact .pure _
    · refine .bind (.report cause) fun reported => ?_
      cases reported with
      | ok _ => exact .pure _
      | error _ => exact .bind (.note (.error "failed to report error")) fun _ => .pure _

theorem inform (text : String) :
    Aloof (Tool.inform text : StateM (Session τ) (Option Int))
      (Tool.inform text : StateM (Session τ') (Option Int)) := by
  refine .bind (.write text) fun written => ?_
  cases written with
  | ok _ => exact .pure _
  | error failure => exact .pure _

/-! ### Records -/

/-- To a record that stands beside the peer nothing is added. -/
theorem recorded {ε : Type} {keep : Session τ → List ε → Session τ'}
    {action : StateM (Session τ) α} {twin : StateM (Session τ') α} (aloof : Aloof action twin)
    (pair : τ → List ε → τ')
    (beside : ∀ session past, keep session past = session.withPeer (pair session.peer past)) :
    Recorded keep action twin fun _ events _ _ => events = [] := by
  intro session past
  obtain ⟨stays, ran⟩ := aloof session (pair session.peer past)
  refine ⟨[], ?_, rfl⟩
  rw [List.append_nil, beside, beside, stays, ran]

end Aloof

end NicScope
