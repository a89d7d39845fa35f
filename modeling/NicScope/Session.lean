/-
A session is what one run of the program acts on: the host, the output, and
whoever is at the other end of the channel to the firmware. A channel says how
that end is reached, asked and left; a device of the host is reached through its
registers.
-/

import NicScope.Device.Discovery
import NicScope.Output

namespace NicScope

structure Session (τ : Type) where
  host : Host
  output : Output
  peer : τ

/-- An action of a session that may fail. What it has changed stays so if it does. -/
abbrev Step (τ : Type) := ExceptT Error (StateM (Session τ))

/-- The way to the firmware. Its actions know the peer and the host. -/
structure Channel (τ : Type) where
  connect : Host × τ → Except Error Unit × (Host × τ)
  request : Query → Host × τ → Reply × (Host × τ)
  close : Host × τ → Host × τ

namespace Session

variable {τ α : Type}

/-- Leaves a log record. -/
def note (record : LogRecord) (session : Session τ) : Session τ :=
  { session with host := session.host.note record }

/-- Acts on the host. -/
def onHost (action : StateM Host α) : StateM (Session τ) α := fun session =>
  let (result, host) := action.run session.host
  (result, { session with host })

/-- Acts on the host, and may fail. -/
def attempt (action : HostAction α) : Step τ α :=
  ExceptT.mk (onHost action.run)

/-- Acts on the host and the peer. -/
def onPeer (action : Host × τ → α × (Host × τ)) : StateM (Session τ) α := fun session =>
  let (result, host, peer) := action (session.host, session.peer)
  (result, { session with host, peer })

/-- Writes to the output. -/
def write (text : String) : StateM (Session τ) (Except IoError Unit) := fun session =>
  let (result, output) := session.output.write text
  (result, { session with output })

/-- Writes to the output, and fails if that does. -/
def print (text : String) : Step τ Unit :=
  ExceptT.mk do return (← write text).mapError .io

/-- Holds a dialogue over a channel. -/
def converse (channel : Channel τ) (exchange : Exchange α) : Step τ α :=
  ExceptT.mk fun session =>
    exchange.run.run (fun query => onPeer (channel.request query)) note session

end Session

namespace Channel

variable {τ : Type}

/-- The channel that cannot be opened. -/
def refused (cause : Error) : Channel τ where
  connect ends := (.error cause, ends)
  request _ ends := (.error cause, ends)
  close ends := ends

/-- The channel to a peer that knows nothing of the host. -/
def direct (answer : Query → τ → Reply × τ) : Channel τ where
  connect ends := (.ok (), ends)
  request query := fun (host, peer) =>
    let (reply, peer) := answer query peer
    (reply, host, peer)
  close ends := ends

/-- The channel to a window that is held already. -/
def window (window : Window τ) (polls : Nat) : Channel τ where
  connect ends := (.ok (), ends)
  request query := fun (host, peer) =>
    let (outcome, peer) := (window.request polls query).run peer
    (outcome.reply, outcome.log.foldl Host.note host, peer)
  close ends := ends

/-- The channel to a device of the host. -/
def device (settings : Settings) : Channel (Option OpenDevice) where
  connect := fun (host, peer) =>
    match (OpenDevice.start settings).run host with
    | (.ok device, host) => (.ok (), host, some device)
    | (.error cause, host) => (.error cause, host, peer)
  request query := fun (host, peer) =>
    match peer with
    | some device =>
      let (reply, host) := (device.request query).run host
      (reply, host, peer)
    | none => (.error (.transport .hostTimeout), host, peer)
  close := fun (host, peer) =>
    match peer with
    | some device => ((device.close.run host).2, none)
    | none => (host, none)

end Channel

end NicScope
