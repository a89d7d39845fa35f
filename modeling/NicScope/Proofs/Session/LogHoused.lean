/-
This file says what the log and the one moved aside hold, and what writing to the log does to both.
In a directory that is there, where the log is no link, its path leads to its name there, whatever
happens elsewhere. A text that is written stands behind what the log held. Where there is no log
nothing is written, and taking the lock does not make one, unless the lock is there.
-/

import NicScope.Proofs.Host.Rooted
import NicScope.Proofs.Session.LogConfined

namespace NicScope

open FileTree

namespace OperationLog

variable {settings : Settings} {files after : FileTree} {directory : Key} {host : Host}

/-! ### The log in its directory -/

/-- The name of the log in its directory. -/
def logKey (directory : Key) : Key :=
  directory ++ ["operations.log"]

/-- The name of a log that has been moved aside. -/
def backupKey (directory : Key) : Key :=
  directory ++ ["operations.log.old"]

theorem isEntry_log : Path.IsEntry "operations.log" :=
  ⟨⟨by decide, by decide, by decide⟩, by decide⟩

theorem isEntry_backup : Path.IsEntry "operations.log.old" :=
  ⟨⟨by decide, by decide, by decide⟩, by decide⟩

theorem logKey_ne_nil : logKey directory ≠ [] :=
  List.append_ne_nil_of_right_ne_nil directory (List.cons_ne_nil _ _)

theorem dropLast_logKey : (logKey directory).dropLast = directory :=
  List.dropLast_concat

theorem backupKey_ne_logKey : backupKey directory ≠ logKey directory :=
  fun same => absurd (List.append_cancel_left same) (by decide)

/-- What the log holds once its directory is there; `none` if there is no log. -/
def contents (settings : Settings) (files : FileTree) : Option Bytes :=
  ((withLogDirectory settings files).read (filePath settings)).toOption

/-- What the log holds that was moved aside; `none` if there is none. -/
def backup (settings : Settings) (files : FileTree) : Option Bytes :=
  ((withLogDirectory settings files).read (backupPath settings)).toOption

/-- Files are arranged as a file system arranges them. In its directory the log is a file or
missing, and what has the name of a log moved aside is no link. -/
structure Fit (settings : Settings) (files : FileTree) : Prop where
  rooted : Rooted files
  log : ∀ place, (withLogDirectory settings files).find (filePath settings) .name = .ok place →
    Plain place.node
  backup : ∀ place, (withLogDirectory settings files).find (backupPath settings) .name = .ok place →
    ∀ target, place.node ≠ some (.link target)

/-- The directory of the log is there, with what is fit for the names in it. -/
structure Housed (settings : Settings) (directory : Key) (files : FileTree) : Prop where
  rooted : Rooted files
  there : FileAction.HasDirectory files settings.logDirectory
  into : files.LeadsInto settings.logDirectory directory
  good : IsPath (filePath settings)
  log : Plain (files.lookup (logKey directory))
  backup : IsPath (backupPath settings) →
    ∀ target, files.lookup (backupKey directory) ≠ some (.link target)

theorem withLogDirectory_of_there (there : FileAction.HasDirectory files settings.logDirectory) :
    withLogDirectory settings files = files := by
  rw [withLogDirectory, FileAction.run_ensurePath_of_hasDirectory there]

/-- Once its directory is there, the log is housed. -/
theorem Fit.exists_housed (fit : Fit settings files)
    (there : FileAction.HasDirectory (withLogDirectory settings files) settings.logDirectory)
    (good : IsPath (filePath settings)) :
    ∃ directory, Housed settings directory (withLogDirectory settings files) := by
  obtain ⟨directory, into⟩ := exists_leadsInto there
  refine ⟨directory, FileAction.rooted_ensurePath _ _ fit.rooted, there, into, good, ?_, ?_⟩
  · exact fit.log _ (into.find isEntry_log good fun _ _ => rfl)
  · exact fun good => fit.backup _ (into.find isEntry_backup good fun _ _ => rfl)

namespace Housed

variable (housed : Housed settings directory files)

include housed

/-- The path of the log leads to its name in the directory. -/
theorem find_log (purpose : Purpose) : files.find (filePath settings) purpose =
    .ok ⟨logKey directory, files.lookup (logKey directory)⟩ :=
  housed.into.find isEntry_log housed.good fun target link =>
    absurd link (housed.log.ne_link target)

theorem find_of_holds {bytes : Bytes} (holds : files.contentAt (logKey directory) = some bytes)
    (purpose : Purpose) : ∃ mode, files.find (filePath settings) purpose =
      .ok ⟨logKey directory, some (.file mode bytes)⟩ := by
  obtain ⟨mode, there⟩ := lookup_of_contentAt holds
  exact ⟨mode, there ▸ housed.find_log purpose⟩

theorem find_of_missing (missing : files.contentAt (logKey directory) = none)
    (purpose : Purpose) : files.find (filePath settings) purpose = .ok ⟨logKey directory, none⟩ :=
  lookup_eq_none_of_contentAt housed.log missing ▸ housed.find_log purpose

theorem find_backup (good : IsPath (backupPath settings)) (purpose : Purpose) :
    files.find (backupPath settings) purpose =
      .ok ⟨backupKey directory, files.lookup (backupKey directory)⟩ :=
  housed.into.find isEntry_backup good fun target link => absurd link (housed.backup good target)

theorem read_log :
    (files.read (filePath settings)).toOption = files.contentAt (logKey directory) :=
  housed.into.read isEntry_log housed.good housed.log.ne_link

theorem contents_eq : contents settings files = files.contentAt (logKey directory) := by
  rw [contents, withLogDirectory_of_there housed.there, housed.read_log]

/-- The directory is one. -/
theorem inside : files.lookup directory = some .directory := by
  have parent := housed.rooted.parent_of_find (housed.find_log .name) logKey_ne_nil
  rwa [dropLast_logKey] at parent

/-- A log stays housed as long as directories and links stay, and what has its name is fit. -/
theorem changed (rooted : Rooted after) (stays : Stays files after)
    (log : Plain (after.lookup (logKey directory)))
    (backup : IsPath (backupPath settings) →
      ∀ target, after.lookup (backupKey directory) ≠ some (.link target)) :
    Housed settings directory after :=
  ⟨rooted, housed.there.imp_right fun there => isDirectory_of_stays there stays,
    housed.into.stays stays, housed.good, log, backup⟩

theorem fit : Fit settings files where
  rooted := housed.rooted
  log place found := by
    rw [withLogDirectory_of_there housed.there, housed.find_log] at found
    cases found
    exact housed.log
  backup place found := by
    rw [withLogDirectory_of_there housed.there] at found
    have good := (find_eq_ok_iff.mp found).1
    rw [housed.find_backup good] at found
    cases found
    exact housed.backup good

end Housed

theorem Housed.backup_eq (housed : Housed settings directory files)
    (good : IsPath (backupPath settings)) :
    OperationLog.backup settings files = files.contentAt (backupKey directory) := by
  rw [OperationLog.backup, withLogDirectory_of_there housed.there]
  exact housed.into.read isEntry_backup good (housed.backup good)

/-- What the log holds that was moved aside changes as the file of that name does, or not at all. -/
theorem Housed.backup_changes {related : Option Bytes → Option Bytes → Prop}
    (same : ∀ content, related content content) (housed : Housed settings directory files)
    (later : Housed settings directory after)
    (changes : related (files.contentAt (backupKey directory))
      (after.contentAt (backupKey directory))) :
    related (OperationLog.backup settings files) (OperationLog.backup settings after) := by
  by_cases good : IsPath (backupPath settings)
  · rw [housed.backup_eq good, later.backup_eq good]
    exact changes
  · have nowhere : OperationLog.backup settings after = OperationLog.backup settings files := by
      rw [OperationLog.backup, OperationLog.backup, withLogDirectory_of_there housed.there,
        withLogDirectory_of_there later.there, FileTree.read, FileTree.read, FileTree.node,
        FileTree.node, find_of_not_isPath good]
    rw [nowhere]
    exact same _

/-! ### Changes to the log -/

namespace Housed

variable (housed : Housed settings directory files)

include housed

/-- A log that is written stays housed, with what is put into it. -/
theorem insert_log (mode : Nat) (content : Bytes) :
    Housed settings directory (files.insert (logKey directory) (.file mode content)) := by
  have stays := stays_insert housed.log (.file mode content)
  refine housed.changed (housed.rooted.insert ?_ housed.log _) stays ?_ fun good target => ?_
  · rw [dropLast_logKey]
    exact housed.inside
  · rw [lookup_insert_self logKey_ne_nil]
    exact plain_file
  · rw [lookup_insert_of_ne backupKey_ne_logKey]
    exact housed.backup good target

/-- A log is made or opened, its mode is set, and something is put into it. -/
theorem rewritten (old new : Nat) (before content : Bytes) :
    let after := (files.insert (logKey directory) (.file old before)).insert (logKey directory)
      (.file new content)
    Housed settings directory after ∧ after.contentAt (logKey directory) = some content ∧
      after.contentAt (backupKey directory) = files.contentAt (backupKey directory) := by
  refine ⟨(housed.insert_log old before).insert_log new content, ?_, ?_⟩
  · exact contentAt_of_lookup (lookup_insert_self logKey_ne_nil)
  · rw [contentAt_congr (lookup_insert_of_ne backupKey_ne_logKey),
      contentAt_congr (lookup_insert_of_ne backupKey_ne_logKey)]

theorem erase_log : Housed settings directory (files.erase (logKey directory)) := by
  refine housed.changed (housed.rooted.erase housed.log) (stays_erase housed.log) ?_
    fun good target => ?_
  · rw [lookup_erase_self logKey_ne_nil]
    exact plain_none
  · rw [lookup_erase_of_ne backupKey_ne_logKey]
    exact housed.backup good target

/-- A log that is moved aside stays housed: its name is free then, and what it held is in the file
of the other name. -/
theorem moved_log (plain : Plain (files.lookup (backupKey directory))) :
    let after := FileAction.moved (logKey directory) (backupKey directory) files
    Housed settings directory after ∧ after.lookup (logKey directory) = none ∧
      after.contentAt (backupKey directory) = files.contentAt (logKey directory) := by
  have apart : ¬ logKey directory <+: backupKey directory := not_below (by decide)
  have apart' : ¬ backupKey directory <+: logKey directory := not_below (by decide)
  have looked := FileAction.lookup_moved_of_rooted housed.rooted housed.log plain apart apart'
  have inside : files.lookup (backupKey directory).dropLast = some .directory := by
    rw [backupKey, List.dropLast_concat]
    exact housed.inside
  obtain ⟨rooted, stays⟩ :=
    FileAction.rooted_moved housed.rooted housed.log plain apart apart' inside
  have gone := looked (logKey directory)
  have there := looked (backupKey directory)
  rw [if_neg backupKey_ne_logKey.symm, if_pos rfl] at gone
  rw [if_pos rfl] at there
  refine ⟨housed.changed rooted stays ?_ fun _ target => ?_, gone, ?_⟩
  · rw [gone]
    exact plain_none
  · rw [there]
    exact housed.log.ne_link target
  · rw [contentAt, there, contentAt]

end Housed

/-! ### Writing under the lock -/

/-- Where the log is missing, taking its lock does not make it: the path of the lock does not lead
to the name of the log. -/
def LocksElsewhere (settings : Settings) (files : FileTree) : Prop :=
  ∀ locked after key, (FileLock.provide settings.lockDirectory "op_log").run files =
    (.ok locked, after) → files.find (filePath settings) .newFile = .ok ⟨key, none⟩ → locked ≠ key

theorem locksElsewhere_of_apart (locked key : Key)
    (provides : ((FileLock.provide settings.lockDirectory "op_log").run files).1 = .ok locked)
    (leads : (files.find (filePath settings) .newFile).toOption.map Place.key = some key)
    (apart : locked ≠ key) : LocksElsewhere settings files := by
  intro other after free provided found
  rw [found] at leads
  rw [provided] at provides
  cases leads
  cases provides
  exact apart

/-- What a file held is kept; where there was none, an empty one may have been made. -/
def Retains (before after : Option Bytes) : Prop :=
  after = before ∨ before = none ∧ after = some []

theorem Retains.getD {before after : Option Bytes} (retains : Retains before after) :
    after.getD [] = before.getD [] := by
  rcases retains with rfl | ⟨rfl, rfl⟩
  · rfl
  · rfl

theorem Retains.eq_some {before after : Option Bytes} {content : Bytes}
    (retains : Retains before after) (there : before = some content) : after = some content := by
  rcases retains with rfl | ⟨rfl, _⟩
  · exact there
  · cases there

theorem Retains.trans {before between after : Option Bytes} (first : Retains before between)
    (second : Retains between after) : Retains before after := by
  rcases first with rfl | ⟨rfl, rfl⟩
  · exact second
  · exact .inr ⟨rfl, second.eq_some rfl⟩

/-- The text stands behind what the log held, if there is a log, and the one moved aside is
retained. -/
structure Written (settings : Settings) (directory : Key) (text : String)
    (files after : FileTree) : Prop where
  housed : Housed settings directory after
  log : after.contentAt (logKey directory) =
    (files.contentAt (logKey directory)).map (· ++ encoded text)
  backup : Retains (files.contentAt (backupKey directory)) (after.contentAt (backupKey directory))

/-- Taking the lock leaves the log housed, unless it makes a directory of it. -/
theorem Housed.provide {locked : Key} (housed : Housed settings directory files)
    (provided : (FileLock.provide settings.lockDirectory "op_log").run files = (.ok locked, after))
    (plain : Plain (after.lookup (logKey directory))) :
    Housed settings directory after ∧
      Retains (files.contentAt (backupKey directory)) (after.contentAt (backupKey directory)) := by
  have adds := FileAction.extends_provide settings.lockDirectory "op_log" files
  have rooted : Rooted ((FileLock.provide settings.lockDirectory "op_log").run files).2 :=
    FileAction.rooted_provide settings.lockDirectory "op_log" files housed.rooted
  rw [provided] at adds rooted
  have made := FileAction.lookup_provide provided (backupKey directory)
  refine ⟨housed.changed rooted adds.stays plain fun good target link => ?_, ?_⟩
  · rcases made with same | ⟨_, there | ⟨_, there⟩⟩
    · exact housed.backup good target (same.symm.trans link)
    · cases there.symm.trans link
    · cases there.symm.trans link
  · rcases made with same | ⟨free, there | ⟨_, there⟩⟩
    · exact .inl (contentAt_congr same)
    · exact .inl (by rw [contentAt, contentAt, there, free])
    · exact .inr ⟨by rw [contentAt, free], contentAt_of_lookup there⟩

section Taken

variable {log : OperationLog} {lock : FileLock} {taken : Host} {key : Key}
  (acquired : (FileLock.acquire log.lockDirectory "op_log").run host = (.ok lock, taken))

include acquired

/-- Where the path of the log leads nowhere, nothing is written. -/
theorem run_append_of_missing (missing : taken.files.isPresent log.path = false) (text : String) :
    (log.append text).run host = (.ok (), taken.unlock lock.key) := by
  rw [append_eq, run_bind_of_ok acquired]
  refine FileLock.run_holding ?_
  rw [run_bind_get, missing]
  rfl

/-- Nothing can be written to a directory. -/
theorem run_append_of_directory (found : taken.files.node log.path = .ok (key, .directory))
    (text : String) : ((log.append text).run host).1 = .error (.io (.system .isDirectory)) := by
  have present : taken.files.isPresent log.path = true := by
    rw [isPresent, found]
    rfl
  have opens : (FileAction.openFile log.path).run taken.files =
      (.error (.system .isDirectory), taken.files) := by
    have looked := FileAction.run_look (·.node log.path) taken.files
    rw [found] at looked
    exact run_bind_of_ok looked
  have extended := Host.run_onFiles (extend log.path text) taken
  rw [extend, run_bind_of_error opens] at extended
  have holding {action : HostAction Unit} :
      ((lock.holding action).run taken).1 = (action.run taken).1 := rfl
  rw [append_eq, run_bind_of_ok acquired, holding, run_bind_get, if_pos present]
  exact congrArg Prod.fst extended

/-- Once the lock is taken, the text stands behind what the log holds then, if there is a log. -/
theorem written_of_taken (housed : Housed settings directory taken.files)
    (path : log.path = filePath settings) (text : String) :
    Written settings directory text taken.files ((log.append text).run host).2.files := by
  rcases holds : taken.files.contentAt (logKey directory) with _ | bytes
  · have missing : taken.files.isPresent log.path = false := by
      rw [isPresent, FileTree.node, path, housed.find_of_missing holds]
      rfl
    rw [run_append_of_missing acquired missing]
    exact ⟨housed, by rw [holds]; exact holds, .inl rfl⟩
  · obtain ⟨old, found⟩ := housed.find_of_holds holds .newFile
    rw [← path] at found
    rw [run_append_of_taken acquired found]
    obtain ⟨later, written, same⟩ := housed.rewritten mode mode bytes (bytes ++ encoded text)
    exact ⟨later, by rw [holds]; exact written, .inl same⟩

end Taken

/-- A text that is written under the lock stands behind what the log held. Where there is no log
nothing is written, and there is none afterwards. -/
theorem Housed.written (housed : Housed settings directory host.files)
    (elsewhere : LocksElsewhere settings host.files) {log : OperationLog}
    (path : log.path = filePath settings) (locks : log.lockDirectory = settings.lockDirectory)
    {text : String} (succeeds : ((log.append text).run host).1 = .ok ()) :
    Written settings directory text host.files ((log.append text).run host).2.files := by
  rcases FileLock.acquire_cases settings.lockDirectory "op_log" host with
    ⟨cause, refused⟩ | ⟨locked, files, provided, _, acquired⟩
  · rw [append_eq, locks, run_bind_of_error refused] at succeeds
    cases succeeds
  rw [← locks] at acquired
  -- Taking the lock may have made a directory of the name of the log, to which nothing can be
  -- written; a file it made there would be the lock.
  rcases FileAction.lookup_provide provided (logKey directory) with
    same | ⟨free, there | ⟨made, _⟩⟩
  · obtain ⟨later, retains⟩ := housed.provide provided (same ▸ housed.log)
    have written := written_of_taken acquired later path text
    exact ⟨written.housed, contentAt_congr same ▸ written.log, retains.trans written.backup⟩
  · have adds := FileAction.extends_provide settings.lockDirectory "op_log" host.files
    rw [provided] at adds
    have into : files.LeadsInto settings.logDirectory directory := housed.into.stays adds.stays
    have found : files.find (filePath settings) .target =
        .ok ⟨logKey directory, files.lookup (logKey directory)⟩ :=
      into.find isEntry_log housed.good fun target link => by cases there.symm.trans link
    rw [there, ← path] at found
    rw [run_append_of_directory acquired (node_eq_ok_iff.mpr found)] at succeeds
    cases succeeds
  · have leads := housed.find_log .newFile
    rw [free] at leads
    exact absurd made.symm (elsewhere _ _ _ provided leads)

/-- If nothing is noted, the text has been written. -/
theorem succeeds_of_silent {log : OperationLog} {text : String}
    (silent : (log.write text host).2.log = host.log) :
    ((log.append text).run host).1 = .ok () := by
  have same := (append_leaves log text host).1
  rw [write] at silent
  rcases ran : (log.append text).run host with ⟨cause | _, final⟩
  · rw [ran] at silent same
    have noted : final.log ++ [.warning "failed to write operation log"] = final.log :=
      silent.trans same.symm
    exact absurd (List.append_right_eq_self.mp noted) (List.cons_ne_nil _ _)
  · rfl

theorem Housed.write (housed : Housed settings directory host.files)
    (elsewhere : LocksElsewhere settings host.files) {log : OperationLog}
    (path : log.path = filePath settings) (locks : log.lockDirectory = settings.lockDirectory)
    {text : String} (silent : (log.write text host).2.log = host.log) :
    Written settings directory text host.files (log.write text host).2.files := by
  rw [files_write]
  exact housed.written elsewhere path locks (succeeds_of_silent silent)

end OperationLog

end NicScope
