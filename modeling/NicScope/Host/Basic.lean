/-
The host that the program runs on: its files, the locks held on them, its clock,
the log, and the number of the program's own process. Actions change the host
and may fail. A lock belongs to the file that its path leads to, so two paths to
one file share it.
-/

import NicScope.Host.Clock
import NicScope.Host.FileTree
import NicScope.Log

namespace NicScope

structure Host where
  files : FileTree
  /-- The files that are locked. -/
  locks : List Key
  /-- The log records so far, the oldest first. -/
  log : List LogRecord
  /-- What the clock shows when it is read for the first time, the second and so on. -/
  clock : Nat → Moment
  /-- How often the clock has been read. -/
  readings : Nat
  process : UInt32
  /-- What has been written behind the ends of mapped files. It can be read there and
  is no part of them. -/
  margins : List (Key × Bytes) := []
  /-- Why the system does not map a file into memory, where it does not. -/
  unmapped : Key → Option Errno := fun _ => none
  /-- Why the system does not lock a file, where it does not. -/
  unlockable : Key → Option Errno := fun _ => none

/-- An action on the host that may fail. What it has changed stays so if it does. -/
abbrev HostAction := ExceptT Error (StateM Host)

/-- A lock that is held, by the path that it was taken under. -/
structure FileLock where
  path : String
  key : Key
  deriving DecidableEq, Repr

namespace Host

/-- Leaves a log record. -/
def note (host : Host) (record : LogRecord) : Host :=
  { host with log := host.log ++ [record] }

/-- Reads the clock. -/
def now : StateM Host Moment := fun host =>
  (host.clock host.readings, { host with readings := host.readings + 1 })

/-- An operation on the files of the host. -/
def onFiles {α : Type} (action : FileAction α) : HostAction α := fun host =>
  match action.run host.files with
  | (.ok value, files) => (.ok value, { host with files })
  | (.error cause, files) => (.error (.io cause), { host with files })

/-- What has been written behind the end of the file at `key`. -/
def margin (host : Host) (key : Key) : Bytes :=
  (host.margins.lookup key).getD []

/-- Forgets what has been written behind the end of the file at `key`. -/
def dropMargin (host : Host) (key : Key) : Host :=
  { host with margins := host.margins.filter fun entry => entry.1 != key }

/-- Writes `bytes` behind the end of the file at `key`. -/
def setMargin (host : Host) (key : Key) (bytes : Bytes) : Host :=
  { host with margins := (key, bytes) :: (host.dropMargin key).margins }

/-- Whether somebody holds the lock of the file at `key`. -/
def isLocked (host : Host) (key : Key) : Bool :=
  host.locks.contains key

/-- Why the file at `key` cannot be locked without waiting, if it cannot. -/
def refusal? (host : Host) (key : Key) : Option Errno :=
  match host.unlockable key with
  | some errno => some errno
  | none => if host.isLocked key then some .tryAgain else none

def lock (host : Host) (key : Key) : Host :=
  { host with locks := key :: host.locks }

def unlock (host : Host) (key : Key) : Host :=
  { host with locks := host.locks.erase key }

end Host

namespace FileLock

/-- Makes the lock file `name` in `directory`, and the directory, unless they are
there. -/
def prepare (directory name : String) : HostAction FileLock := do
  Host.onFiles (FileAction.ensurePath directory)
  let path := Path.join directory name
  let key ← Host.onFiles (FileAction.createFile path 0o600)
  return ⟨path, key⟩

/-- Takes a lock, waiting until whoever holds it lets go. -/
def acquire (directory name : String) : HostAction FileLock := do
  let lock ← prepare directory name
  match (← get).unlockable lock.key with
  | some errno => throw (.lock errno)
  | none =>
    modify (·.lock lock.key)
    return lock

/-- Takes a lock if it is free. -/
def tryAcquire (directory name : String) : HostAction (Option FileLock) := do
  let lock ← prepare directory name
  match (← get).refusal? lock.key with
  | some errno => if errno = .tryAgain then return none else throw (.lock errno)
  | none =>
    modify (·.lock lock.key)
    return some lock

def release (lock : FileLock) : StateM Host Unit :=
  modify (·.unlock lock.key)

/-- Runs an action under a lock, and lets go of the lock however it ends. -/
def holding {α : Type} (lock : FileLock) (action : HostAction α) : HostAction α := fun host =>
  let (result, host) := action.run host
  (result, host.unlock lock.key)

end FileLock

end NicScope
