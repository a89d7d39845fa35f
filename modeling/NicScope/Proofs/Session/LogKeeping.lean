/-
This file says what it takes to keep the operation log, and that writing to it works then. A
kept log is a file that its path leads to, in a directory that is there, with a lock that can be
taken. Taking a lock leaves it kept as it is, writing puts a text behind what it holds, and
opening it makes what is missing.
-/

import NicScope.OperationLog
import NicScope.Proofs.Host.Making

namespace NicScope

open FileTree

/-! ### Locks -/

theorem Place.TakesFile.becomes {key : Key} {before after : Option Node}
    (takes : Place.TakesFile ⟨key, before⟩) (becomes : Becomes before after) :
    Place.TakesFile ⟨key, after⟩ := by
  rintro node same
  obtain rfl : after = some node := same
  cases becomes with
  | made | file => exact ⟨_, _, rfl⟩
  | directory | link =>
    obtain ⟨_, _, ⟨⟩⟩ := takes _ rfl

namespace FileLock

variable {files : FileTree} {directory name : String}

/-- The file of a lock is the one that its path leads to once the directory was to be made. -/
theorem provide_of_find {directories : Except IoError Unit} {after : FileTree} {key : Key}
    {node : Option Node} (made : (FileAction.ensurePath directory).run files = (directories, after))
    (succeeds : directories = .ok ())
    (found : after.find (Path.join directory name) .newFile = .ok ⟨key, node⟩)
    (takes : Place.TakesFile ⟨key, node⟩) : ((provide directory name).run files).1 = .ok key := by
  subst succeeds
  rw [provide, run_bind_of_ok made, FileAction.run_createFile, found]
  cases node with
  | none => rfl
  | some node =>
    obtain ⟨mode, content, rfl⟩ := takes node rfl
    rfl

/-- A lock can still be taken when, once its directory was to be made, nothing but files is made. -/
theorem Takable.steady {host after : Host} (takable : Takable host directory name)
    (steady : Steady ((FileAction.ensurePath directory).run host.files).2 after.files)
    (locks : after.unlockable = host.unlockable) : Takable after directory name := by
  obtain ⟨⟨succeeds, ⟨key, node⟩, found, takes⟩, granted⟩ := takable
  have there := FileAction.hasDirectory_of_ensurePath succeeds
  obtain ⟨_, ends⟩ := succeeds
  have still := FileAction.run_ensurePath_of_hasDirectory (there.grown steady.grows)
  obtain ⟨later, leads, becomes⟩ := find_of_grows steady.grows found fun free => by
    obtain rfl : node = none := free
    exact lookup_of_find found nofun ▸ steady.becomes key
  have takes' := takes.becomes becomes
  refine ⟨⟨⟨(), by rw [still]⟩, ⟨key, later⟩, by rw [still]; exact leads, takes'⟩, ?_⟩
  -- The path of the lock leads to the same file as before, and the system locks that.
  intro other provided
  cases (provide_of_find still rfl leads takes').symm.trans provided
  rw [locks]
  exact granted key (provide_of_find rfl ends found takes)

theorem Takable.kept {host after : Host} (takable : Takable host directory name)
    (there : FileAction.HasDirectory host.files directory) (steady : Steady host.files after.files)
    (locks : after.unlockable = host.unlockable) : Takable after directory name := by
  refine takable.steady ?_ locks
  rw [FileAction.run_ensurePath_of_hasDirectory there]
  exact steady

theorem unlockable_acquire (directory name : String) (host : Host) :
    ((acquire directory name).run host).2.unlockable = host.unlockable := by
  rcases acquire_cases directory name host with ⟨_, refused⟩ | ⟨_, _, _, _, acquired⟩
  · rw [refused]
  · rw [acquired]
    rfl

theorem steady_acquire (directory name : String) (host : Host) :
    Steady ((FileAction.ensurePath directory).run host.files).2
        ((acquire directory name).run host).2.files ∧
      Extends ((FileAction.ensurePath directory).run host.files).2
        ((acquire directory name).run host).2.files := by
  rw [files_acquire]
  exact FileAction.steady_provide directory name host.files

theorem run_holding {α : Type} {lock : FileLock} {action : HostAction α} {host after : Host}
    {result : Except Error α} (ran : action.run host = (result, after)) :
    (lock.holding action).run host = (result, after.unlock lock.key) := by
  have holds : (lock.holding action).run host =
      ((action.run host).1, (action.run host).2.unlock lock.key) := rfl
  rw [holds, ran]

end FileLock

/-! ### Texts as bytes -/

theorem toList_loop (bytes : ByteArray) (index : Nat) (before : List UInt8) :
    ByteArray.toList.loop bytes index before = before.reverse ++ bytes.data.toList.drop index := by
  induction remaining : bytes.size - index generalizing index before with
  | zero =>
    rw [ByteArray.toList.loop, if_neg (by omega), List.drop_of_length_le, List.append_nil]
    rw [Array.length_toList, ByteArray.size_data]
    omega
  | succ remaining inductionHypothesis =>
    have inside : index < bytes.data.toList.length := by
      rw [Array.length_toList, ByteArray.size_data]
      omega
    have byte : bytes.get! index = bytes.data.toList[index] := by
      rw [ByteArray.get!, getElem!_pos bytes.data index (by simpa using inside),
        Array.getElem_toList]
    rw [ByteArray.toList.loop, if_pos (by omega), inductionHypothesis _ _ (by omega),
      List.drop_eq_getElem_cons inside, byte, List.reverse_cons, List.append_assoc,
      List.singleton_append]

namespace OperationLog

/-- The bytes of a text. -/
def encoded (text : String) : Bytes :=
  text.toUTF8.toList

theorem encoded_eq (text : String) : encoded text = text.toByteArray.data.toList :=
  toList_loop text.toByteArray 0 []

theorem encoded_append (text more : String) :
    encoded (text ++ more) = encoded text ++ encoded more := by
  rw [encoded_eq, encoded_eq, encoded_eq, String.toByteArray_append, ByteArray.data_append,
    Array.toList_append]

theorem encoded_inj {text other : String} (same : encoded text = encoded other) : text = other := by
  rw [encoded_eq, encoded_eq] at same
  exact String.toByteArray_inj.mp (ByteArray.ext (Array.toList_inj.mp same))

/-! ### What is kept -/

/-- The path of the log. -/
def filePath (settings : Settings) : String :=
  Path.join settings.logDirectory "operations.log"

/-- The log holds these bytes, in a file of a directory that is there, and its lock can be taken. -/
structure Kept (settings : Settings) (bytes : Bytes) (host : Host) : Prop where
  directory : FileAction.HasDirectory host.files settings.logDirectory
  holds : ∃ key mode,
    host.files.find (filePath settings) .newFile = .ok ⟨key, some (.file mode bytes)⟩
  lockable : FileLock.Takable host settings.lockDirectory "op_log"

variable {settings : Settings} {bytes : Bytes} {host : Host}

/-- Of a host only the files matter, and what the system locks. -/
theorem Kept.of_eq (kept : Kept settings bytes host) {other : Host}
    (files : other.files = host.files) (locks : other.unlockable = host.unlockable) :
    Kept settings bytes other := by
  obtain ⟨directory, holds, available, granted⟩ := kept
  rw [← files] at directory holds available granted
  exact ⟨directory, holds, available, fun key provided => locks ▸ granted key provided⟩

/-- Taking a lock leaves the log as it is, and the directory of the locks is there then. -/
theorem Kept.acquire (kept : Kept settings bytes host) (name : String) :
    Kept settings bytes ((FileLock.acquire settings.lockDirectory name).run host).2 ∧
      FileAction.HasDirectory ((FileLock.acquire settings.lockDirectory name).run host).2.files
        settings.lockDirectory := by
  have there := FileAction.hasDirectory_of_ensurePath kept.lockable.available.1
  have first := FileAction.extends_ensurePath settings.lockDirectory host.files
  obtain ⟨steady, second⟩ := FileLock.steady_acquire settings.lockDirectory name host
  have both := first.trans second
  obtain ⟨key, mode, holds⟩ := kept.holds
  refine ⟨⟨kept.directory.grown both.grows, ⟨key, mode, ?_⟩, kept.lockable.steady steady ?_⟩,
    there.grown steady.grows⟩
  · exact find_file_of_grows both.grows holds (both.keeps (lookup_of_find holds nofun))
  · exact FileLock.unlockable_acquire settings.lockDirectory name host

/-- The files of a log with something written behind what it holds. -/
def extend (path text : String) : FileAction Unit := do
  let key ← FileAction.openFile path
  FileAction.setMode path mode
  FileAction.update key (· ++ encoded text)

theorem append_eq (log : OperationLog) (text : String) :
    log.append text = (do
      let lock ← FileLock.acquire log.lockDirectory "op_log"
      lock.holding do
        if (← get).files.isPresent log.path then Host.onFiles (extend log.path text)) :=
  rfl

/-- Nothing is noted, and the system locks what it did before. -/
theorem append_leaves (log : OperationLog) (text : String) (host : Host) :
    ((log.append text).run host).2.log = host.log ∧
      ((log.append text).run host).2.unlockable = host.unlockable := by
  rcases FileLock.acquire_cases log.lockDirectory "op_log" host with
    ⟨cause, refused⟩ | ⟨key, files, _, _, acquired⟩
  · rw [append_eq, run_bind_of_error refused]
    exact ⟨rfl, rfl⟩
  · have holding {lock : FileLock} {action : HostAction Unit} {taken : Host} :
        ((lock.holding action).run taken).2 = (action.run taken).2.unlock lock.key := rfl
    rw [append_eq, run_bind_of_ok acquired, holding, run_bind_get]
    split
    · rw [Host.run_onFiles]
      exact ⟨rfl, rfl⟩
    · exact ⟨rfl, rfl⟩

theorem run_extend {files : FileTree} {path : String} {key : Key} {old : Nat}
    (holds : files.find path .newFile = .ok ⟨key, some (.file old bytes)⟩) (text : String) :
    (extend path text).run files =
      (.ok (), (files.insert key (.file mode bytes)).insert key
        (.file mode (bytes ++ encoded text))) := by
  obtain ⟨_, opened⟩ := FileAction.find_insert_of_file holds mode bytes
  rw [extend, run_bind_of_ok (FileAction.run_openFile (node_of_newFile holds)),
    run_bind_of_ok (FileAction.run_setMode (node_of_newFile holds) mode),
    FileAction.run_update (lookup_of_find opened nofun)]

/-- Writing puts the text behind what the log holds, if its lock can be taken. -/
theorem run_append_of_taken {log : OperationLog} {lock : FileLock} {taken : Host} {key : Key}
    {old : Nat}
    (acquired : (FileLock.acquire log.lockDirectory "op_log").run host = (.ok lock, taken))
    (holds : taken.files.find log.path .newFile = .ok ⟨key, some (.file old bytes)⟩)
    (text : String) :
    let files := (taken.files.insert key (.file mode bytes)).insert key
      (.file mode (bytes ++ encoded text))
    (log.append text).run host = (.ok (), { taken with files }.unlock lock.key) := by
  have present : taken.files.isPresent log.path = true := by
    rw [isPresent, node_of_newFile holds]
    rfl
  have extended := Host.run_onFiles (extend log.path text) taken
  rw [run_extend holds] at extended
  rw [append_eq, run_bind_of_ok acquired]
  refine FileLock.run_holding ?_
  rw [run_bind_get, if_pos present, extended]
  rfl

/-- Writing to a kept log puts the text behind what it holds. -/
theorem Kept.run_append (kept : Kept settings bytes host) {log : OperationLog}
    (path : log.path = filePath settings) (locks : log.lockDirectory = settings.lockDirectory)
    (text : String) :
    ((log.append text).run host).1 = .ok () ∧
      Kept settings (bytes ++ encoded text) ((log.append text).run host).2 := by
  obtain ⟨lock, acquired⟩ := FileLock.succeeds_acquire_iff.mpr kept.lockable
  obtain ⟨kept, there⟩ := kept.acquire "op_log"
  have taken : (FileLock.acquire log.lockDirectory "op_log").run host =
      (.ok lock, ((FileLock.acquire settings.lockDirectory "op_log").run host).2) := by
    rw [locks]
    exact Prod.ext acquired rfl
  obtain ⟨key, old, holds⟩ := kept.holds
  obtain ⟨first, opened⟩ := FileAction.find_insert_of_file holds mode bytes
  obtain ⟨second, written⟩ := FileAction.find_insert_of_file opened mode (bytes ++ encoded text)
  rw [run_append_of_taken taken (path ▸ holds) text]
  exact ⟨rfl, kept.directory.grown (first.trans second).grows, ⟨key, mode, written⟩,
    kept.lockable.kept there (first.trans second) rfl⟩

/-- A failure to write changes only the log records, so the files are what appending leaves. -/
theorem files_write (log : OperationLog) (text : String) (host : Host) :
    (log.write text host).2.files = ((log.append text).run host).2.files := by
  rw [write]
  rcases (log.append text).run host with ⟨cause | _, after⟩
  · rfl
  · rfl

theorem unlockable_write (log : OperationLog) (text : String) (host : Host) :
    (log.write text host).2.unlockable = host.unlockable := by
  have same := (append_leaves log text host).2
  rw [write]
  rcases ran : (log.append text).run host with ⟨cause | _, after⟩
  all_goals
    rw [ran] at same
    exact same

/-- The record of a run is put behind what a kept log holds. -/
theorem Kept.recordResult (kept : Kept settings bytes host) (log : OperationLog)
    (path : log.path = filePath settings) (locks : log.lockDirectory = settings.lockDirectory)
    (result : Int) :
    Kept settings
      (bytes ++ encoded (log.input ++
        resultText log.started (host.clock host.readings) result))
      (log.recordResult result host).2 := by
  let moment := host.clock host.readings
  let later : Host := { host with readings := host.readings + 1 }
  have kept : Kept settings bytes later := kept.of_eq rfl rfl
  obtain ⟨written, kept⟩ := kept.run_append path locks
    (log.input ++ resultText log.started moment result)
  have writes : log.recordResult result host =
      log.write (log.input ++ resultText log.started moment result) later := rfl
  rw [writes, write]
  rcases ran : (log.append (log.input ++ resultText log.started moment result)).run later
    with ⟨outcome, after⟩
  rw [ran] at written kept
  obtain rfl : outcome = .ok () := written
  exact kept

/-! ### Opening the log -/

/-- What the log holds once its directory is there: nothing, if there is no file yet. -/
def held (settings : Settings) (files : FileTree) : Bytes :=
  match ((FileAction.ensurePath settings.logDirectory).run files).2.read (filePath settings) with
  | .ok content => content
  | .error _ => []

/-- The log can be opened: its directory is there or can be made, its path leads to a file or to a
free name, and once it is open its lock can be taken. -/
structure Usable (settings : Settings) (host : Host) : Prop where
  file : FileLock.Available host.files settings.logDirectory "operations.log"
  lock : FileLock.Takable ((start settings).run host).2 settings.lockDirectory "op_log"

/-- A log that has been opened. -/
def opened (settings : Settings) (host : Host) : OperationLog :=
  ⟨filePath settings, settings.lockDirectory, host.clock host.readings, ""⟩

theorem size_of_find {files : FileTree} {path : String} {key : Key} {mode : Nat} {content : Bytes}
    (found : files.find path .newFile = .ok ⟨key, some (.file mode content)⟩) :
    files.size path = .ok content.length ∧ files.read path = .ok content := by
  rw [FileTree.size, FileTree.read, node_of_newFile found]
  exact ⟨rfl, rfl⟩

/-- What has no size is no file. -/
theorem find_ne_file_of_size {files : FileTree} {path : String} {cause : IoError}
    (size : files.size path = .error cause) (key : Key) (mode : Nat) (content : Bytes) :
    files.find path .newFile ≠ .ok ⟨key, some (.file mode content)⟩ := by
  intro found
  cases size.symm.trans (size_of_find found).1

theorem size_of_free {files : FileTree} {path : String} {key : Key}
    (free : files.find path .newFile = .ok ⟨key, none⟩) :
    (∃ cause, files.size path = .error cause) ∧ ∃ cause, files.read path = .error cause := by
  have missing : files.node path = .error (.system .noEntry) := by
    rw [FileTree.node, find_target_of_newFile free]
    rfl
  rw [FileTree.size, FileTree.read, missing]
  exact ⟨⟨_, rfl⟩, ⟨_, rfl⟩⟩

/-- Makes the log file, unless it is there. -/
def make (path : String) : FileAction Unit := do
  let _ ← FileAction.createFile path 0o644
  FileAction.setMode path mode

/-- Where the name of the log is free, an empty log is made. -/
theorem run_make {files : FileTree} {path : String} {key : Key}
    (free : files.find path .newFile = .ok ⟨key, none⟩) :
    let after := (files.insert key (.file 0o644 [])).insert key (.file mode [])
    (make path).run files = (.ok (), after) ∧ Steady files after ∧
      after.find path .newFile = .ok ⟨key, some (.file mode [])⟩ := by
  have none := lookup_of_find free nofun
  have first := FileAction.find_insert free 0o644 []
  obtain ⟨second, stays⟩ := FileAction.find_insert_of_file first mode []
  have steady : Steady files (files.insert key (.file 0o644 [])) := steady_insert (none ▸ .made)
  have created := FileAction.run_createFile path 0o644 files
  rw [free] at created
  refine ⟨?_, steady.trans second, stays⟩
  rw [make, run_bind_of_ok created, FileAction.run_setMode (node_of_newFile first)]

theorem run_bind_now {α : Type} {next : Moment → HostAction α} (host : Host) :
    ((liftM Host.now : HostAction Moment) >>= next).run host =
      (next (host.clock host.readings)).run { host with readings := host.readings + 1 } :=
  rfl

/-- The path of a log that has been moved aside. -/
def backupPath (settings : Settings) : String :=
  Path.join settings.logDirectory "operations.log.old"

/-- Moves the log aside and makes a new one. -/
def renew (settings : Settings) : FileAction Unit := do
  FileAction.rename (filePath settings) (backupPath settings)
  make (filePath settings)

/-- How opening a log goes on once its directory is there. -/
def tend (settings : Settings) (log : OperationLog) : HostAction OperationLog := do
  match (← get).files.size (filePath settings) with
  | .ok bytes =>
    if bytes > maxBytes then
      Host.onFiles (renew settings)
      log.write (notice (← Host.now) (backupPath settings))
  | .error _ => Host.onFiles (make (filePath settings))
  return log

section Opening

variable {files : FileTree} {key : Key}
  (made : (FileAction.ensurePath settings.logDirectory).run host.files = (.ok (), files))

include made

theorem run_start : (start settings).run host =
    (tend settings (opened settings host)).run
      { host with files, readings := host.readings + 1 } := by
  have directories := Host.run_onFiles (FileAction.ensurePath settings.logDirectory) host
  rw [made] at directories
  rw [start, run_bind_of_ok directories, run_bind_now]
  rfl

/-- Opening a log that is there and not too large makes its directory at most, which is there. -/
theorem run_start_of_file {mode : Nat} {content : Bytes}
    (found : files.find (filePath settings) .newFile = .ok ⟨key, some (.file mode content)⟩)
    (small : content.length ≤ maxBytes) :
    (start settings).run host =
      (.ok (opened settings host), { host with files, readings := host.readings + 1 }) := by
  rw [run_start made, tend, run_bind_get]
  dsimp only
  rw [(size_of_find found).1]
  dsimp only
  rw [if_neg (Nat.not_lt.mpr small)]
  rfl

/-- Opening a log that is missing makes an empty one. -/
theorem run_start_of_missing
    (free : files.find (filePath settings) .newFile = .ok ⟨key, none⟩) :
    (start settings).run host = (.ok (opened settings host),
      { host with
        files := (files.insert key (.file 0o644 [])).insert key (.file mode [])
        readings := host.readings + 1 }) := by
  obtain ⟨cause, size⟩ := (size_of_free free).1
  rw [run_start made, tend, run_bind_get]
  dsimp only
  rw [size]
  dsimp only
  have made := Host.run_onFiles (make (filePath settings))
    { host with files, readings := host.readings + 1 }
  rw [(run_make free).1] at made
  exact run_bind_of_ok made

theorem run_start_of_free (free : files.find (filePath settings) .newFile = .ok ⟨key, none⟩) :
    ∃ after, (start settings).run host =
        (.ok (opened settings host), { host with files := after, readings := host.readings + 1 }) ∧
      Steady files after ∧
      after.find (filePath settings) .newFile = .ok ⟨key, some (.file mode [])⟩ := by
  obtain ⟨_, steady, stays⟩ := run_make free
  exact ⟨_, run_start_of_missing made free, steady, stays⟩

end Opening

/-- Opening the log does not change what the system locks. -/
theorem unlockable_start (settings : Settings) (host : Host) :
    ((start settings).run host).2.unlockable = host.unlockable := by
  have directories := Host.run_onFiles (FileAction.ensurePath settings.logDirectory) host
  rcases made : (FileAction.ensurePath settings.logDirectory).run host.files with
    ⟨cause | _, files⟩
  · rw [made] at directories
    rw [start, run_bind_of_error directories]
  rw [run_start made, tend, run_bind_get]
  dsimp only
  split
  · split
    · have renewing := Host.run_onFiles (renew settings)
        { host with files, readings := host.readings + 1 }
      rcases done : (renew settings).run files with ⟨cause | _, after⟩
      all_goals rw [done] at renewing
      · rw [run_bind_of_error renewing]
      · rw [run_bind_of_ok renewing, run_bind_now]
        exact unlockable_write _ _ _
    · rfl
  · have making := Host.run_onFiles (make (filePath settings))
      { host with files, readings := host.readings + 1 }
    rcases done : (make (filePath settings)).run files with ⟨cause | _, after⟩
    all_goals rw [done] at making
    · rw [run_bind_of_error making]
    · rw [run_bind_of_ok making]
      rfl

/-- Opening a usable log that is not too large makes it a kept one, with what it holds already. -/
theorem Usable.run_start (usable : Usable settings host)
    (small : (held settings host.files).length ≤ maxBytes) :
    ∃ after, (start settings).run host = (.ok (opened settings host), after) ∧
      Kept settings (held settings host.files) after := by
  obtain ⟨succeeds, ⟨key, node⟩, found, takes⟩ := usable.file
  have there := FileAction.hasDirectory_of_ensurePath succeeds
  have lock := usable.lock
  obtain ⟨_, ends⟩ := succeeds
  rw [held] at small ⊢
  rcases made : (FileAction.ensurePath settings.logDirectory).run host.files with ⟨outcome, files⟩
  rw [made] at ends there found small
  obtain rfl : outcome = .ok () := ends
  have found : files.find (filePath settings) .newFile = .ok ⟨key, node⟩ := found
  dsimp only at small ⊢
  cases node with
  | some node =>
    obtain ⟨mode, content, rfl⟩ := takes node rfl
    rw [(size_of_find found).2] at small ⊢
    have starts := run_start_of_file made found small
    rw [starts] at lock
    exact ⟨_, starts, there, ⟨key, mode, found⟩, lock⟩
  | none =>
    obtain ⟨cause, unreadable⟩ := (size_of_free found).2
    obtain ⟨after, starts, steady, found⟩ := run_start_of_free made found
    rw [starts] at lock
    rw [unreadable]
    exact ⟨_, starts, there.grown steady.grows, ⟨key, _, found⟩, lock⟩

/-- What a kept log holds. -/
theorem Kept.held_eq (kept : Kept settings bytes host) : held settings host.files = bytes := by
  obtain ⟨_, _, found⟩ := kept.holds
  rw [held, FileAction.run_ensurePath_of_hasDirectory kept.directory]
  dsimp only
  rw [(size_of_find found).2]

/-- A kept log that is not too large is usable. -/
theorem Kept.usable (kept : Kept settings bytes host) (small : bytes.length ≤ maxBytes) :
    Usable settings host := by
  obtain ⟨key, mode, found⟩ := kept.holds
  have made := FileAction.run_ensurePath_of_hasDirectory kept.directory
  refine ⟨⟨⟨(), by rw [made]⟩, ⟨key, some (.file mode bytes)⟩, by rw [made]; exact found, ?_⟩, ?_⟩
  · rintro node ⟨⟩
    exact ⟨mode, bytes, rfl⟩
  · rw [run_start_of_file made found small]
    have later : Kept settings bytes { host with readings := host.readings + 1 } :=
      kept.of_eq rfl rfl
    exact later.lockable

end OperationLog

end NicScope
