/-
This file says which runs spare the operation log. A command does nothing to the files of the
host but what its channel does to them, so it keeps of them what the channel keeps. The channel
to the device changes two files, that of its registers and its configuration; unless one of
these is the log, a run over it spares the log, as does every run over a channel that leaves the
files alone.
-/

import NicScope.Proofs.Device.Keeping
import NicScope.Proofs.Device.Opening
import NicScope.Proofs.Session.LogKeeping
import NicScope.Proofs.Session.Stages

namespace NicScope

open FileTree OperationLog

variable {τ α : Type}

/-! ### Commands -/

/-- Something that holds of the host and the peer of a session. -/
def Session.Has (good : Host → τ → Prop) (session : Session τ) : Prop :=
  good session.host session.peer

/-- A channel that makes something good of the host and the peer when it is opened, if they are as
they have to be at the start, and then keeps it. What is noted makes no difference to it. -/
structure Channel.Keeps (start good : Host → τ → Prop) (channel : Channel τ) : Prop where
  connect : ∀ ends, start ends.1 ends.2 →
    good (channel.connect ends).2.1 (channel.connect ends).2.2
  request : ∀ query ends, good ends.1 ends.2 →
    good (channel.request query ends).2.1 (channel.request query ends).2.2
  close : ∀ ends, good ends.1 ends.2 → good (channel.close ends).1 (channel.close ends).2
  note : ∀ record host peer, good host peer → good (host.note record) peer

section Commands

variable {start good : Host → τ → Prop}

theorem Command.keeps_explain (command : Command) (cause : Error) :
    Keeps (Session.Has good) (command.explain cause : StateM (Session τ) Error) := by
  cases cause with
  | usage text =>
    have shown : Keeps (Session.Has good) (Session.write command.help) := fun _ here => here
    refine .bind shown fun written => ?_
    cases written with
    | ok _ => exact fun _ here => here
    | error failure => exact fun _ here => here
  | _ => exact fun _ here => here

theorem Dump.keeps_print (noting : ∀ record host peer, good host peer →
      good (host.note record) peer) (dump : Dump) :
    Keeps (Session.Has good) (dump.print : Step τ Unit).run := by
  induction dump with
  | nil => exact fun _ here => here
  | cons piece rest inductionHypothesis =>
    cases piece with
    | text text =>
      have printed : Keeps (Session.Has good) (Session.print text : Step τ Unit).run :=
        fun _ here => here
      exact .step printed fun _ => inductionHypothesis
    | note record =>
      have noted : Keeps (Session.Has good) (modify (Session.note record) : Step τ PUnit).run :=
        fun session here => noting record session.host session.peer here
      exact .step noted fun _ => inductionHypothesis

namespace Channel.Keeps

variable {channel : Channel τ} (keeps : channel.Keeps start good)

include keeps

theorem converse (exchange : Exchange α) :
    NicScope.Keeps (Session.Has good) (Session.converse channel exchange).run := by
  intro session here
  change Session.Has good (Dialogue.run _ _ exchange session).2
  induction exchange generalizing session with
  | done result => exact here
  | ask query next inductionHypothesis =>
    exact inductionHypothesis _ _ (keeps.request query (session.host, session.peer) here)
  | tell record next inductionHypothesis =>
    exact inductionHypothesis _ (keeps.note record session.host session.peer here)

/-- A command keeps what its channel keeps. -/
theorem connected (command : Command) (context : command.Context) (session : Session τ)
    (here : start session.host session.peer) :
    Session.Has good (command.connected channel context session).2 := by
  have connected : Session.Has good (Session.onPeer channel.connect session).2 :=
    keeps.connect (session.host, session.peer) here
  rw [Command.connected]
  rcases outcome : (Session.onPeer channel.connect session).1 with cause | _
  · rw [bind_of_result outcome]
    exact connected
  · rw [bind_of_result outcome]
    refine NicScope.Keeps.bind (.step (keeps.converse _) (Dump.keeps_print keeps.note))
      (fun result => ?_) _
      connected
    refine .bind (fun session => keeps.close (session.host, session.peer)) fun _ => ?_
    cases result with
    | ok _ => exact fun _ here => here
    | error cause => exact .bind (command.keeps_explain cause) fun _ _ here => here

end Channel.Keeps

end Commands

/-! ### The device -/

/-- The log is the file at `key`, and the directories of the log and of the locks are there. -/
structure LogAt (settings : Settings) (key : Key) (bytes : Bytes) (host : Host) : Prop where
  kept : Kept settings bytes host
  place : (host.files.find (filePath settings) .newFile).toOption.map Place.key = some key
  locks : FileAction.HasDirectory host.files settings.lockDirectory

namespace LogAt

variable {settings : Settings} {key : Key} {bytes : Bytes} {host : Host}

theorem holds (log : LogAt settings key bytes host) :
    ∃ mode, host.files.find (filePath settings) .newFile = .ok ⟨key, some (.file mode bytes)⟩ := by
  obtain ⟨other, mode, holds⟩ := log.kept.holds
  have place := log.place
  rw [holds] at place
  cases place
  exact ⟨mode, holds⟩

/-- Of a host only the files matter, and what the system locks. -/
theorem of_eq (log : LogAt settings key bytes host) {other : Host}
    (files : other.files = host.files) (locks : other.unlockable = host.unlockable) :
    LogAt settings key bytes other :=
  ⟨log.kept.of_eq files locks, files ▸ log.place, files ▸ log.locks⟩

/-- Another file may be changed. -/
theorem insert (log : LogAt settings key bytes host) {other : Key} (different : other ≠ key)
    {mode : Nat} {content : Bytes} (found : host.files.lookup other = some (.file mode content))
    (mode' : Nat) (content' : Bytes) :
    LogAt settings key bytes
      { host with files := host.files.insert other (.file mode' content') } := by
  obtain ⟨old, holds⟩ := log.holds
  have steady : Steady host.files (host.files.insert other (.file mode' content')) :=
    steady_insert (found ▸ .file)
  have still : (host.files.insert other (.file mode' content')).find (filePath settings) .newFile =
      .ok ⟨key, some (.file old bytes)⟩ := by
    refine find_file_of_grows steady.grows holds ?_
    rw [lookup_insert_of_ne different.symm]
    exact lookup_of_find holds nofun
  refine ⟨⟨log.kept.directory.grown steady.grows, ⟨key, old, still⟩,
    log.kept.lockable.kept log.locks steady rfl⟩, ?_, log.locks.grown steady.grows⟩
  rw [still]
  rfl

theorem keeps_window {other : Key} (different : other ≠ key) :
    (FileWindow.window other).Keeps (LogAt settings key bytes) where
  read register host log := by
    simp only [FileWindow.window]
    split
    · exact log
    · exact log
  write register value host log := by
    simp only [FileWindow.window]
    split
    next mode content found => exact (log.insert different found _ _).of_eq rfl rfl
    next => exact log

end LogAt

/-! ### Opening the device -/

namespace Discovery

/-- The file at `key` is none of the two that the device is reached through. -/
def Apart (settings : Settings) (key : Key) (files : FileTree) : Prop :=
  ∀ directory, find settings files = some directory → ∀ name ∈ ["resource0", "config"],
    ∀ other node, files.node (Path.join directory name) = .ok (other, node) → other ≠ key

/-- Where there is no device, every file is apart from it. -/
theorem Apart.of_missing {key : Key} {files : FileTree} (missing : find settings files = none) :
    Apart settings key files := by
  intro directory found
  cases missing.symm.trans found

end Discovery

namespace LogAt

variable {settings : Settings} {key : Key} {bytes : Bytes} {host : Host}

theorem configures (log : LogAt settings key bytes host)
    (apart : Discovery.Apart settings key host.files) {files : FileTree}
    (configures : Discovery.Configures settings host.files files) :
    LogAt settings key bytes { host with files } := by
  cases configures with
  | untouched => exact log
  | @enabled directory other mode content command found leads here =>
    have different : other ≠ key := apart directory found "config" (by simp) other _ leads
    exact log.insert different (lookup_of_find (node_eq_ok_iff.mp leads) nofun) _ _

/-- Opening a device that is apart from the log leaves the log alone, and what is opened is not the
log. -/
theorem start (log : LogAt settings key bytes host)
    (apart : Discovery.Apart settings key host.files) :
    LogAt settings key bytes ((OpenDevice.start settings).run host).2 ∧
      ∀ device, ((OpenDevice.start settings).run host).1 = .ok device → device.key ≠ key := by
  rcases OpenDevice.startThrough_cases settings host with
    ⟨cause, files, records, configures, fails⟩ |
      ⟨directory, registers, mode, content, files, records, found, leads, configures, holds⟩
  · rw [OpenDevice.start, fails FileWindow.window fun _ _ _ => rfl]
    exact ⟨(log.configures apart configures).of_eq rfl rfl, nofun⟩
  · have different : registers ≠ key :=
      apart directory found "resource0" (by simp) registers _ leads
    have claimed := (keeps_window different).claim host.process { host with
      files, log := host.log ++ records, locks := registers :: host.locks }
      ((log.configures apart configures).of_eq rfl rfl)
    rw [OpenDevice.start, holds]
    generalize (FileWindow.window registers).claim = claim at claimed ⊢
    refine ⟨claimed, ?_⟩
    rintro _ ⟨⟩
    exact different

theorem notes (records : List LogRecord) :
    Keeps (LogAt settings key bytes)
      (modify fun host => records.foldl Host.note host : StateM Host PUnit) := by
  intro host log
  change LogAt settings key bytes (records.foldl Host.note host)
  induction records generalizing host with
  | nil => exact log
  | cons record rest inductionHypothesis => exact inductionHypothesis _ (log.of_eq rfl rfl)

theorem request {device : OpenDevice} (different : device.key ≠ key) (query : Query) :
    Keeps (LogAt settings key bytes) (device.request query) := by
  have asked : Keeps (LogAt settings key bytes)
      ((FileWindow.window device.key).request device.polls query) :=
    (keeps_window different).request _ _
  exact .bind asked fun outcome => .bind (notes outcome.log) fun _ _ log => log

theorem close {device : OpenDevice} (different : device.key ≠ key) :
    Keeps (LogAt settings key bytes) device.close := by
  have released : Keeps (LogAt settings key bytes) (FileWindow.window device.key).release :=
    (keeps_window different).release
  exact .bind released fun _ _ log => log.of_eq rfl rfl

end LogAt

/-- The channel to the device leaves the log alone, if the device is apart from it. -/
theorem Channel.keeps_device (settings : Settings) (key : Key) (bytes : Bytes) :
    (Channel.device settings).Keeps
      (fun host peer =>
        LogAt settings key bytes host ∧ Discovery.Apart settings key host.files ∧ peer = none)
      fun host peer => LogAt settings key bytes host ∧ ∀ device ∈ peer, device.key ≠ key where
  connect := by
    rintro ⟨host, _⟩ ⟨log, apart, rfl⟩
    obtain ⟨log, different⟩ := log.start apart
    simp only [Channel.device]
    generalize (OpenDevice.start settings).run host = started at log different ⊢
    rcases started with ⟨cause | device, after⟩
    · exact ⟨log, nofun⟩
    · refine ⟨log, ?_⟩
      rintro _ ⟨⟩
      exact different device rfl
  request := by
    rintro query ⟨host, _ | device⟩ ⟨log, different⟩
    · exact ⟨log, different⟩
    · exact ⟨LogAt.request (different device rfl) query host log, different⟩
  close := by
    rintro ⟨host, _ | device⟩ ⟨log, different⟩
    · exact ⟨log, different⟩
    · exact ⟨LogAt.close (different device rfl) host log, nofun⟩
  note _ _ _ good := ⟨good.1.of_eq rfl rfl, good.2⟩

/-! ### Runs that spare the log -/

namespace Tool

variable {tool : Tool} {arguments : List String}

/-- The command of a command line, if it is admitted, leaves the log as it is. -/
def Spares (tool : Tool) (channel : Channel τ) (arguments : List String) (session : Session τ) :
    Prop :=
  ∀ command context, tool.Admits arguments session.host command context →
    ∀ bytes, Kept tool.settings bytes (tool.entered session).host →
      Kept tool.settings bytes (command.connected channel context (tool.entered session)).2.host

/-- Over a channel to a peer that knows nothing of the host every command spares the log. -/
theorem spares_direct (answer : Query → τ → Reply × τ) (session : Session τ) :
    tool.Spares (.direct answer) arguments session := by
  intro command context _ bytes kept
  have keeps : (Channel.direct answer).Keeps (fun host _ => Kept tool.settings bytes host)
      fun host _ => Kept tool.settings bytes host :=
    ⟨fun _ kept => kept, fun _ _ kept => kept, fun _ kept => kept,
      fun _ _ _ kept => kept.of_eq rfl rfl⟩
  exact keeps.connected command context (tool.entered session) kept

/-- So does every command over the channel to the device, if the device is apart from the log. -/
theorem spares_device {session : Session (Option OpenDevice)} (unopened : session.peer = none)
    (apart : ∀ place, (tool.entered session).host.files.find (filePath tool.settings) .newFile =
      .ok place → Discovery.Apart tool.settings place.key (tool.entered session).host.files) :
    tool.Spares (.device tool.settings) arguments session := by
  intro command context admits bytes kept
  obtain ⟨key, mode, holds⟩ := kept.holds
  have succeeds := admits.lockable.available.1
  have locks := (FileAction.hasDirectory_of_ensurePath succeeds).grown
    (FileLock.steady_acquire tool.settings.lockDirectory Command.lockName session.host).1.grows
  have log : LogAt tool.settings key bytes (tool.entered session).host :=
    ⟨kept, by rw [holds]; rfl, locks⟩
  have after := (Channel.keeps_device tool.settings key bytes).connected command context
    (tool.entered session) ⟨log, apart _ holds, unopened⟩
  exact after.1.kept

end Tool

end NicScope
