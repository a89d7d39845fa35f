/-
This file says what opening the device can come to. Until the device is held nothing is written to
a register: what fails before has left the registers alone, through whatever they are reached, and
of the files at most the configuration of the device is changed, in which access to its memory is
turned on. Only what cannot fail any more writes to the registers.
-/

import NicScope.Device.Discovery
import NicScope.Proofs.Host.Making

namespace NicScope

open FileTree FileAction

namespace Discovery

/-- Finding the device changes nothing but the log. -/
theorem run_discover (settings : Settings) (host : Host) :
    ∃ records, (discover settings).run host =
      (match find settings host.files with
        | none => .error (.deviceNotFound settings.vendor settings.device)
        | some directory => .ok directory, { host with log := host.log ++ records }) := by
  rw [discover, run_bind_get]
  dsimp only
  cases find settings host.files with
  | none =>
    refine ⟨[], ?_⟩
    rw [List.append_nil]
    rfl
  | some directory =>
    dsimp only
    cases hasRevision settings host.files directory with
    | false => exact ⟨_, rfl⟩
    | true =>
      refine ⟨[], ?_⟩
      rw [List.append_nil]
      rfl

/-- Access to memory is turned on in a file that can be read up to there; else nothing is done. -/
theorem run_enableMemory (path : String) (host : Host) :
    (∃ cause, (enableMemory path).run host = (.error cause, host)) ∨
      ∃ key mode content command,
        host.files.node path = .ok (key, .file mode content) ∧ content[4]? = some command ∧
        (enableMemory path).run host = (.ok (), { host with
          files := host.files.insert key (.file mode (content.set 4 (command ||| 2))) }) := by
  have opens := Host.run_onFiles (openFile path) host
  rw [enableMemory]
  rcases run_openFile_cases path host.files with ⟨cause, ran⟩ | ⟨key, mode, content, found, ran⟩
  · rw [ran] at opens
    exact .inl ⟨.io cause, run_bind_of_error opens⟩
  · rw [ran] at opens
    have reads := Host.run_onFiles (look (·.read path)) host
    rw [run_look, FileTree.read, found] at reads
    rw [run_bind_of_ok opens, run_bind_of_ok reads]
    cases here : content[4]? with
    | none => exact .inl ⟨.io .endOfFile, rfl⟩
    | some command =>
      refine .inr ⟨key, mode, content, command, found, here, ?_⟩
      dsimp only
      rw [Host.run_onFiles, run_update (lookup_of_find (node_eq_ok_iff.mp found) nofun)]
      rfl

/-- What opening the device may make of the files: nothing, or access to memory is turned on in the
configuration of the device that is found. -/
inductive Configures (settings : Settings) (files : FileTree) : FileTree → Prop
  | untouched : Configures settings files files
  | enabled {directory : String} {key : Key} {mode : Nat} {content : Bytes} {command : UInt8}
      (found : find settings files = some directory)
      (leads : files.node (Path.join directory "config") = .ok (key, .file mode content))
      (here : content[4]? = some command) :
      Configures settings files
        (files.insert key (.file mode (content.set 4 (command ||| 2))))

end Discovery

namespace OpenDevice

open Discovery

theorem run_map (key : Key) (host : Host) :
    (FileWindow.map key).run host =
      (match host.unmapped key with
        | some errno => .error (.system errno)
        | none => .ok (), host) := by
  rw [FileWindow.map, run_bind_get]
  cases host.unmapped key with
  | some errno => rfl
  | none => rfl

theorem run_tryLock (key : Key) (host : Host) :
    tryLock key host =
      match host.refusal? key with
      | some _ => (false, host)
      | none => (true, host.lock key) := by
  have goes : tryLock key host = (match host.refusal? key with
    | some _ => pure false
    | none => do
      modify (·.lock key)
      return true : StateM Host Bool) host := rfl
  rw [goes]
  cases host.refusal? key with
  | some errno => rfl
  | none => rfl

/-- A try that is refused leaves the host as it is, so the next one is refused as well. -/
theorem retryLock_eq_tryLock (key : Key) (further : Nat) : retryLock key further = tryLock key := by
  funext host
  induction further with
  | zero => rfl
  | succ further inductionHypothesis =>
    have ran := run_tryLock key host
    cases refused : host.refusal? key with
    | none =>
      rw [refused] at ran
      rw [retryLock, bind_of_result (congrArg Prod.fst ran), ran]
      rfl
    | some errno =>
      rw [refused] at ran
      rw [retryLock, bind_of_result (congrArg Prod.fst ran), ran]
      exact inductionHypothesis.trans ran

/-- However often it is tried, the device is held exactly if its lock is not refused. -/
theorem run_hold (window : Window Host) (key : Key) (attempts : Nat) (host : Host) :
    (hold window key attempts).run host =
      match host.refusal? key with
      | some _ => (.error (.deviceBusy (window.read Register.holder host).1),
          host.note (.error "timed out waiting for lock"))
      | none => (.ok (), (window.claim host.process (host.lock key)).2) := by
  have tried : (liftM (retryLock key (attempts - 1)) : HostAction Bool).run host =
      (.ok (tryLock key host).1, (tryLock key host).2) := by
    rw [retryLock_eq_tryLock]
    rfl
  rw [run_tryLock] at tried
  cases refused : host.refusal? key with
  | some errno =>
    rw [refused] at tried
    rw [hold, run_bind_of_ok tried, if_neg Bool.false_ne_true]
    rfl
  | none =>
    rw [refused] at tried
    rw [hold, run_bind_of_ok tried]
    rfl

/-- Windows that read what the windows to the registers in files read. How they are written is
not said. -/
def ReadsAlike (window : Key → Window Host) : Prop :=
  ∀ key register host,
    ((window key).read register host).1 = ((FileWindow.window key).read register host).1

/-- Until the registers are mapped only the log grows. Either the device is not found, its registers
are not opened or they are not mapped; or what is left of opening it is to turn on access to its
memory and to hold it. -/
theorem startThrough_maps (settings : Settings) (host : Host) :
    ∃ records, (∃ cause, ∀ window, (startThrough window settings).run host =
        (.error cause, { host with log := host.log ++ records })) ∨
      ∃ directory key mode content, find settings host.files = some directory ∧
        host.files.node (Path.join directory "resource0") = .ok (key, .file mode content) ∧
        ∀ window, (startThrough window settings).run host =
          (do
            enableMemory (Path.join directory "config")
            hold (window key) key settings.lockAttempts
            return ⟨key, settings.polls⟩ : HostAction OpenDevice).run
              { host with log := host.log ++ records } := by
  obtain ⟨records, discovered⟩ := run_discover settings host
  refine ⟨records, ?_⟩
  cases found : find settings host.files with
  | none =>
    rw [found] at discovered
    refine .inl ⟨.deviceNotFound settings.vendor settings.device, fun window => ?_⟩
    rw [startThrough, run_bind_of_error discovered]
  | some directory =>
    rw [found] at discovered
    have opens := Host.run_onFiles (openFile (Path.join directory "resource0"))
      { host with log := host.log ++ records }
    rcases run_openFile_cases (Path.join directory "resource0") host.files with
      ⟨cause, ran⟩ | ⟨key, mode, content, leads, ran⟩
    · rw [ran] at opens
      refine .inl ⟨.io cause, fun window => ?_⟩
      rw [startThrough, run_bind_of_ok discovered, run_bind_of_error opens]
    · rw [ran] at opens
      have maps := run_map key { host with log := host.log ++ records }
      cases mapped : host.unmapped key with
      | some errno =>
        rw [mapped] at maps
        refine .inl ⟨.system errno, fun window => ?_⟩
        rw [startThrough, run_bind_of_ok discovered, run_bind_of_ok opens, run_bind_of_error maps]
      | none =>
        rw [mapped] at maps
        refine .inr ⟨directory, key, mode, content, rfl, leads, fun window => ?_⟩
        rw [startThrough, run_bind_of_ok discovered, run_bind_of_ok opens, run_bind_of_ok maps]

/-- What opening the device comes to. Either it fails, and would fail so with any way to write to
the registers; or the device is found, mapped and locked, and then claimed. -/
theorem startThrough_cases (settings : Settings) (host : Host) :
    (∃ cause files records, Configures settings host.files files ∧
      ∀ window, ReadsAlike window → (startThrough window settings).run host =
        (.error cause, { host with files, log := host.log ++ records })) ∨
      ∃ directory key mode content files records,
        find settings host.files = some directory ∧
        host.files.node (Path.join directory "resource0") = .ok (key, .file mode content) ∧
        Configures settings host.files files ∧
        ∀ window, (startThrough window settings).run host =
          (.ok ⟨key, settings.polls⟩, ((window key).claim host.process { host with
            files, log := host.log ++ records, locks := key :: host.locks }).2) := by
  obtain ⟨records, ⟨cause, fails⟩ | ⟨directory, key, mode, content, found, leads, reaches⟩⟩ :=
    startThrough_maps settings host
  · exact .inl ⟨cause, host.files, records, .untouched, fun window _ => fails window⟩
  generalize noted : ({ host with log := host.log ++ records } : Host) = middle at reaches
  have still : middle.files = host.files := by rw [← noted]
  rcases run_enableMemory (Path.join directory "config") middle with
    ⟨cause, enables⟩ | ⟨other, mode', content', command, configured, here, enables⟩
  · refine .inl ⟨cause, host.files, records, .untouched, fun window _ => ?_⟩
    rw [reaches, run_bind_of_error enables, ← noted]
  rw [still] at configured
  have configures := Configures.enabled found configured here
  generalize made : ({ middle with
    files := middle.files.insert other (.file mode' (content'.set 4 (command ||| 2))) } : Host) =
    ready at enables
  have held (window : Key → Window Host) := run_hold (window key) key settings.lockAttempts ready
  cases refused : ready.refusal? key with
  | some errno =>
    rw [refused] at held
    refine .inl ⟨.deviceBusy ((FileWindow.window key).read Register.holder ready).1, _,
      records ++ [.error "timed out waiting for lock"], configures, fun window alike => ?_⟩
    rw [reaches, run_bind_of_ok enables, run_bind_of_error (held window), alike, ← made, ← noted,
      Host.note, List.append_assoc]
  | none =>
    rw [refused] at held
    refine .inr ⟨directory, key, mode, content, _, records, found, leads, configures,
      fun window => ?_⟩
    rw [reaches, run_bind_of_ok enables, run_bind_of_ok (held window), ← made, ← noted]
    rfl

end OpenDevice

end NicScope
