/-
This file says what of a session does not depend on the host. A remote channel knows nothing of the
host: what it does depends on the peer alone. Over such a channel all that a command does while it
holds its lock comes to the same in sessions that are alike but for the host, and leaves them with
the same output and the same peer.
-/

import NicScope.Proofs.Parallel
import NicScope.Proofs.Session.Requests

namespace NicScope

variable {τ α β : Type}

/-! ### Heedless actions -/

/-- The sessions are the same but for the host. -/
structure Session.Alike (first second : Session τ) : Prop where
  output : second.output = first.output
  peer : second.peer = first.peer

/-- An action that takes no heed of the host. -/
def Heedless (action : StateM (Session τ) α) : Prop :=
  ∀ ⦃first second⦄, first.Alike second → Parallel Session.Alike action first second

namespace Heedless

protected theorem pure (result : α) : Heedless (pure result : StateM (Session τ) α) :=
  fun _ _ alike => .pure result alike

protected theorem bind {action : StateM (Session τ) α} {next : α → StateM (Session τ) β}
    (first : Heedless action) (second : ∀ given, Heedless (next given)) :
    Heedless (action >>= next) :=
  fun _ _ alike => (first alike).bind fun given _ => second given (first alike).agree

theorem step {action : Step τ α} {next : α → Step τ β} (first : Heedless action.run)
    (second : ∀ given, Heedless (next given).run) : Heedless (action >>= next).run :=
  fun _ _ alike => (first alike).step fun given _ => second given (first alike).agree

/-- What only changes the host is not noticed. -/
theorem onHost (action : StateM Host Unit) :
    Heedless (Session.onHost action : StateM (Session τ) Unit) :=
  fun _ _ alike => ⟨rfl, alike.output, alike.peer⟩

theorem write (text : String) :
    Heedless (Session.write text : StateM (Session τ) (Except IoError Unit)) := by
  rintro ⟨_, _, _⟩ ⟨_, _, _⟩ ⟨rfl, rfl⟩
  exact ⟨rfl, rfl, rfl⟩

theorem note (record : LogRecord) :
    Heedless (modify (Session.note record) : StateM (Session τ) Unit) :=
  fun _ _ alike => ⟨rfl, alike.output, alike.peer⟩

theorem print (text : String) : Heedless (Session.print text : Step τ Unit).run :=
  .bind (.write text) fun _ => .pure _

theorem dump (dump : Dump) : Heedless (dump.print : Step τ Unit).run := by
  induction dump with
  | nil => exact .pure (Except.ok ())
  | cons piece rest inductionHypothesis =>
    cases piece with
    | text text => exact .step (.print text) fun _ => inductionHypothesis
    | note record =>
      exact .step (.bind (.note record) fun _ => .pure _) fun _ => inductionHypothesis

theorem explain (command : Command) (cause : Error) :
    Heedless (command.explain cause : StateM (Session τ) Error) := by
  cases cause with
  | usage text =>
    refine .bind (.write command.help) fun written => ?_
    cases written with
    | ok _ => exact .pure _
    | error failure => exact .pure _
  | _ => exact .pure _

theorem conclude (result : Except Error Unit) :
    Heedless (Tool.conclude result : StateM (Session τ) (Option Int)) := by
  cases result with
  | ok _ => exact .pure _
  | error cause =>
    rw [Tool.conclude]
    split
    · exact .pure _
    · refine .bind (.write (Tool.reportText cause)) fun reported => ?_
      cases reported with
      | ok _ => exact .pure _
      | error _ => exact .bind (.note (.error "failed to report error")) fun _ => .pure _

theorem inform (text : String) :
    Heedless (Tool.inform text : StateM (Session τ) (Option Int)) := by
  refine .bind (.write text) fun written => ?_
  cases written with
  | ok _ => exact .pure _
  | error failure => exact .pure _

end Heedless

/-! ### Remote channels -/

/-- An action on the host and the peer that knows nothing of the host. -/
def Detached (action : Host × τ → α × (Host × τ)) : Prop :=
  ∀ host other peer, (action (other, peer)).1 = (action (host, peer)).1 ∧
    (action (other, peer)).2.2 = (action (host, peer)).2.2

/-- A channel whose actions know nothing of the host. -/
structure Channel.Remote (channel : Channel τ) : Prop where
  connect : Detached channel.connect
  request : ∀ query, Detached (channel.request query)
  close : Detached fun ends => ((), channel.close ends)

namespace Channel

theorem remote_refused (cause : Error) : (refused cause : Channel τ).Remote :=
  ⟨fun _ _ _ => ⟨rfl, rfl⟩, fun _ _ _ _ => ⟨rfl, rfl⟩, fun _ _ _ => ⟨rfl, rfl⟩⟩

theorem remote_direct (answer : Query → τ → Reply × τ) : (direct answer).Remote :=
  ⟨fun _ _ _ => ⟨rfl, rfl⟩, fun _ _ _ _ => ⟨rfl, rfl⟩, fun _ _ _ => ⟨rfl, rfl⟩⟩

theorem remote_window (held : Window τ) (polls : Nat) : (window held polls).Remote :=
  ⟨fun _ _ _ => ⟨rfl, rfl⟩, fun _ _ _ _ => ⟨rfl, rfl⟩, fun _ _ _ => ⟨rfl, rfl⟩⟩

variable {channel : Channel τ}

/-- A record beside the peer tells it nothing of the host. -/
theorem Remote.recording (remote : channel.Remote) : channel.recording.Remote := by
  refine ⟨fun host other peer => ?_, fun query host other peer => ?_, fun host other peer => ?_⟩
  · obtain ⟨result, left⟩ := remote.connect host other peer.1
    exact ⟨result, Prod.ext left rfl⟩
  · obtain ⟨reply, left⟩ := remote.request query host other peer.1
    exact ⟨reply, Prod.ext left (congrArg (fun reply => peer.2 ++ [(query, reply)]) reply)⟩
  · obtain ⟨_, left⟩ := remote.close host other peer.1
    exact ⟨rfl, Prod.ext left rfl⟩

end Channel

/-! ### Commands -/

namespace Heedless

theorem onPeer {action : Host × τ → α × (Host × τ)} (detached : Detached action) :
    Heedless (Session.onPeer action) := by
  rintro ⟨host, _, _⟩ ⟨other, output, peer⟩ ⟨rfl, rfl⟩
  obtain ⟨result, left⟩ := detached host other peer
  exact ⟨result, rfl, left⟩

variable {channel : Channel τ} (remote : channel.Remote)

include remote

theorem dialogue (dialogue : Dialogue Query Reply α) :
    Heedless (dialogue.run (fun query => Session.onPeer (channel.request query)) Session.note) := by
  induction dialogue with
  | done result => exact .pure result
  | ask query next inductionHypothesis =>
    exact .bind (.onPeer (remote.request query)) inductionHypothesis
  | tell record next inductionHypothesis =>
    exact .bind (.note record) fun _ => inductionHypothesis

theorem perform (command : Command) (context : command.Context) :
    Heedless (command.perform channel context).run :=
  .step (.dialogue remote (command.execute context).run) .dump

/-- All that a command does while it holds its lock takes no heed of the host. -/
theorem connected (command : Command) (context : command.Context) :
    Heedless (command.connected channel context) := by
  refine .bind (.onPeer remote.connect) fun opened => ?_
  cases opened with
  | error cause => exact .pure _
  | ok _ =>
    refine .bind (.perform remote command context) fun result =>
      .bind (.onPeer remote.close) fun _ => ?_
    cases result with
    | ok _ => exact .pure _
    | error cause => exact .bind (.explain command cause) fun _ => .pure _

end Heedless

end NicScope
