/-
This file says what opening the log and removing it do to the log and to the one moved aside. A log
that is missing is made, one that is not too large is left as it is, and one that has grown too
large takes the place of the one moved aside, with all that it holds.
-/

import Mathlib.Tactic.ByContra
import NicScope.Proofs.Session.LogHoused

namespace NicScope

open FileTree

namespace OperationLog

variable {settings : Settings} {files after : FileTree} {directory : Key} {host : Host}

/-! ### Opening the log -/

/-- What the log holds and the one moved aside once the log has been opened: a log that is too large
takes the place of the one moved aside, and the notice is all that the new one holds. -/
def opening (notice : String) : Option Bytes × Option Bytes → Option Bytes × Option Bytes
  | (none, backup) => (some [], backup)
  | (some bytes, backup) =>
    if bytes.length > maxBytes then (some (encoded notice), some bytes) else (some bytes, backup)

theorem opening_ne_none {notice : String} {shelf : Option Bytes × Option Bytes} :
    (opening notice shelf).1 ≠ none := by
  obtain ⟨_ | bytes, backup⟩ := shelf
  · exact nofun
  · rw [opening]
    split
    · exact nofun
    · exact nofun

/-- What the log holds and the one moved aside. -/
def shelf (settings : Settings) (files : FileTree) : Option Bytes × Option Bytes :=
  (contents settings files, backup settings files)

/-- A log that is housed before and after, with what has changed. -/
theorem Housed.shelf_eq (housed : Housed settings directory files)
    (later : Housed settings directory after) {content : Option Bytes}
    (log : after.contentAt (logKey directory) = content)
    (same : after.contentAt (backupKey directory) = files.contentAt (backupKey directory)) :
    shelf settings after = (content, OperationLog.backup settings files) := by
  rw [shelf, later.contents_eq, log, ← housed.backup_changes (fun _ => rfl) later same.symm]

theorem exists_error_of_not_isPath {path : String} (bad : ¬ IsPath path) (files : FileTree)
    (purpose : Purpose) : ∃ cause, files.find path purpose = .error cause := by
  cases found : files.find path purpose with
  | error cause => exact ⟨cause, rfl⟩
  | ok place => exact absurd (find_eq_ok_iff.mp found).1 bad

/-- A log that has been opened has a path that the system looks at. -/
theorem isPath_of_tend {log : OperationLog} (succeeds : Succeeds (tend settings log) host) :
    IsPath (filePath settings) := by
  by_contra bad
  obtain ⟨cause, lost⟩ := exists_error_of_not_isPath bad host.files .target
  obtain ⟨cause', closed⟩ := exists_error_of_not_isPath bad host.files .newFile
  have size : host.files.size (filePath settings) = .error cause := by
    rw [FileTree.size, FileTree.node, lost]
    rfl
  have created := FileAction.run_createFile (filePath settings) 0o644 host.files
  rw [closed] at created
  have made := Host.run_onFiles (make (filePath settings)) host
  rw [make, run_bind_of_error created] at made
  obtain ⟨_, ends⟩ := succeeds
  rw [tend, run_bind_get] at ends
  dsimp only at ends
  rw [size] at ends
  dsimp only at ends
  rw [make, run_bind_of_error made] at ends
  cases ends

/-- Where the log is there, its lock may be anywhere. -/
theorem Housed.locksElsewhere (housed : Housed settings directory files) {bytes : Bytes}
    (holds : files.contentAt (logKey directory) = some bytes) : LocksElsewhere settings files := by
  intro locked after key _ free
  obtain ⟨mode, there⟩ := housed.find_of_holds holds .newFile
  cases free.symm.trans there

/-- The host on which the log has been moved aside, once the notice is written. -/
def announced (settings : Settings) (host : Host) (files : FileTree) : Host :=
  ((opened settings host).write (notice (host.clock (host.readings + 1)) (backupPath settings))
    { host with files, readings := host.readings + 2 }).2

/-- A log that is moved aside leaves an empty one, and the file of the other name holds what it
held. -/
theorem Housed.renewed (housed : Housed settings directory files) {bytes : Bytes}
    (holds : files.contentAt (logKey directory) = some bytes)
    (succeeds : Succeeds (renew settings) files) :
    IsPath (backupPath settings) ∧
      ∃ after, (renew settings).run files = (.ok (), after) ∧ Housed settings directory after ∧
        after.contentAt (logKey directory) = some [] ∧
        after.contentAt (backupKey directory) = some bytes := by
  obtain ⟨old, source⟩ := housed.find_of_holds holds .name
  obtain ⟨_, ends⟩ := succeeds
  rcases FileAction.run_rename_cases (filePath settings) (backupPath settings) files with
    ⟨cause, fails⟩ | ⟨_, _, _, _, found, target, moves⟩
  · rw [renew, run_bind_of_error fails] at ends
    cases ends
  have good := (find_eq_ok_iff.mp target).1
  have aside := housed.find_backup good .name
  cases found.symm.trans source
  cases target.symm.trans aside
  have plain : Plain (files.lookup (backupKey directory)) := by
    intro node taken
    cases node with
    | file mode content => exact ⟨mode, content, rfl⟩
    | directory =>
      rw [taken] at aside
      rw [FileAction.run_rename_onto_directory source aside] at moves
      cases moves
    | link target => exact absurd taken (housed.backup good target)
  rw [if_neg backupKey_ne_logKey.symm] at moves
  obtain ⟨housed, gone, moved⟩ := housed.moved_log plain
  have free := housed.find_log .newFile
  rw [gone] at free
  obtain ⟨later, empty, same⟩ := housed.rewritten 0o644 mode [] []
  refine ⟨good, _, ?_, later, empty, ?_⟩
  · rw [renew, run_bind_of_ok moves, (run_make free).1]
  · rw [same, moved, holds]

section Opening

variable (made : (FileAction.ensurePath settings.logDirectory).run host.files = (.ok (), files))

include made

/-- A log that is too large is moved aside, and the notice is written. -/
theorem run_start_of_large {key : Key} {mode : Nat} {content : Bytes}
    (found : files.find (filePath settings) .newFile = .ok ⟨key, some (.file mode content)⟩)
    (large : content.length > maxBytes) :
    (start settings).run host =
      match (renew settings).run files with
      | (.ok _, after) => (.ok (opened settings host), announced settings host after)
      | (.error cause, after) =>
        (.error (.io cause), { host with files := after, readings := host.readings + 1 }) := by
  have renewing :=
    Host.run_onFiles (renew settings) { host with files, readings := host.readings + 1 }
  rw [run_start made, tend, run_bind_get]
  dsimp only
  rw [(size_of_find found).1]
  dsimp only
  rw [if_pos large]
  rcases done : (renew settings).run files with ⟨cause | _, after⟩
  all_goals rw [done] at renewing
  · rw [run_bind_of_error renewing]
  · rw [run_bind_of_ok renewing, run_bind_now]
    rfl

variable (housed : Housed settings directory files) {log : OperationLog} {final : Host}
  (opens : (start settings).run host = (.ok log, final))

include housed opens

theorem shelf_of_missing (missing : files.contentAt (logKey directory) = none) :
    log = opened settings host ∧ Housed settings directory final.files ∧
      shelf settings final.files = (some [], backup settings files) := by
  cases opens.symm.trans (run_start_of_missing made (housed.find_of_missing missing .newFile))
  obtain ⟨later, empty, same⟩ := housed.rewritten 0o644 mode [] []
  exact ⟨rfl, later, housed.shelf_eq later empty same⟩

variable {bytes : Bytes} (holds : files.contentAt (logKey directory) = some bytes)

include holds

theorem shelf_of_small (small : bytes.length ≤ maxBytes) :
    log = opened settings host ∧ Housed settings directory final.files ∧
      shelf settings final.files = (some bytes, backup settings files) := by
  obtain ⟨old, found⟩ := housed.find_of_holds holds .newFile
  cases opens.symm.trans (run_start_of_file made found small)
  exact ⟨rfl, housed, housed.shelf_eq housed holds rfl⟩

/-- Where the log is too large and nothing is noted, it has been moved aside and the notice is
written. -/
theorem shelf_of_large (large : bytes.length > maxBytes) (silent : final.log = host.log) :
    log = opened settings host ∧ Housed settings directory final.files ∧
      shelf settings final.files =
        (some (encoded (notice (host.clock (host.readings + 1)) (backupPath settings))),
          some bytes) := by
  obtain ⟨old, found⟩ := housed.find_of_holds holds .newFile
  rw [run_start_of_large made found large] at opens
  rcases done : (renew settings).run files with ⟨cause | _, after⟩
  all_goals rw [done] at opens
  · cases opens
  obtain ⟨good, _, renews, housed, empty, moved⟩ :=
    housed.renewed holds ⟨(), congrArg Prod.fst done⟩
  cases done.symm.trans renews
  cases opens
  let renewed : Host := { host with files := after, readings := host.readings + 2 }
  have written := Housed.write (show Housed settings directory renewed.files from housed)
    (housed.locksElsewhere empty) rfl rfl silent
  have log := written.log
  rw [show renewed.files.contentAt (logKey directory) = some [] from empty] at log
  refine ⟨rfl, written.housed, Prod.ext (written.housed.contents_eq.trans log) ?_⟩
  exact (written.housed.backup_eq good).trans (written.backup.eq_some moved)

end Opening

/-- A log that has been opened is housed, and opening it has done what its size asks for, if nothing
is noted. -/
theorem Fit.shelf_of_opened (fit : Fit settings host.files) {log : OperationLog} {final : Host}
    (opens : (start settings).run host = (.ok log, final)) (silent : final.log = host.log) :
    log = opened settings host ∧ (∃ directory, Housed settings directory final.files) ∧
      shelf settings final.files =
        opening (notice (host.clock (host.readings + 1)) (backupPath settings))
          (shelf settings host.files) := by
  rcases made : (FileAction.ensurePath settings.logDirectory).run host.files with
    ⟨cause | _, files⟩
  · have directories := Host.run_onFiles (FileAction.ensurePath settings.logDirectory) host
    rw [made] at directories
    rw [start, run_bind_of_error directories] at opens
    cases opens
  have here : withLogDirectory settings host.files = files := congrArg Prod.snd made
  have there := FileAction.hasDirectory_of_ensurePath ⟨(), congrArg Prod.fst made⟩
  rw [made] at there
  have good : IsPath (filePath settings) :=
    isPath_of_tend ⟨log, congrArg Prod.fst ((run_start made).symm.trans opens)⟩
  obtain ⟨directory, housed⟩ := fit.exists_housed (here ▸ there) good
  rw [here] at housed
  have same : shelf settings host.files = shelf settings files := by
    rw [shelf, shelf, contents, contents, OperationLog.backup, OperationLog.backup, here,
      withLogDirectory_of_there there]
  rw [same]
  cases holds : files.contentAt (logKey directory) with
  | none =>
    obtain ⟨opened, later, shelved⟩ := shelf_of_missing made housed opens holds
    refine ⟨opened, ⟨directory, later⟩, ?_⟩
    rw [shelved, shelf, housed.contents_eq, holds, opening]
  | some bytes =>
    by_cases large : bytes.length > maxBytes
    · obtain ⟨opened, later, shelved⟩ := shelf_of_large made housed opens holds large silent
      refine ⟨opened, ⟨directory, later⟩, ?_⟩
      rw [shelved, shelf, housed.contents_eq, holds, opening, if_pos large]
    · obtain ⟨opened, later, shelved⟩ :=
        shelf_of_small made housed opens holds (Nat.not_lt.mp large)
      refine ⟨opened, ⟨directory, later⟩, ?_⟩
      rw [shelved, shelf, housed.contents_eq, holds, opening, if_neg large]

/-! ### Removing the log -/

/-- A log that has been removed was housed, and its name is free. -/
theorem Fit.removed (fit : Fit settings host.files)
    (removes : (FileAction.remove (filePath settings)).run host.files = (.ok (), files)) :
    ∃ directory, Housed settings directory host.files ∧
      files = host.files.erase (logKey directory) := by
  have looked := FileAction.run_look (·.find (filePath settings) .name) host.files
  rw [FileAction.remove] at removes
  rcases found : host.files.find (filePath settings) .name with cause | place
  all_goals rw [found] at looked
  · rw [run_bind_of_error looked] at removes
    cases removes
  have there := withLogDirectory_of_there (hasDirectory_of_find isEntry_log found)
  obtain ⟨directory, housed⟩ := fit.exists_housed
    (there.symm ▸ hasDirectory_of_find isEntry_log found) (find_eq_ok_iff.mp found).1
  rw [there] at housed
  cases found.symm.trans (housed.find_log .name)
  refine ⟨directory, housed, ?_⟩
  rw [run_bind_of_ok looked] at removes
  rcases node : host.files.lookup (logKey directory) with _ | node
  all_goals rw [node] at removes
  · cases removes
  · obtain ⟨mode, content, rfl⟩ := housed.log _ node
    cases removes
    rfl

end OperationLog

end NicScope
