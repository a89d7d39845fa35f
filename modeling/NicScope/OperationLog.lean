/-
The operation log: one record for each run of the program, with the command line
and how the run ended. A log that has grown beyond its limit is moved aside when
the program starts, in place of the one moved aside before, and a notice says so
in the new log. Records go to the end of the file, under a lock; where the file
has been removed nothing is written, and a failure is only noted.
-/

import NicScope.Host.Basic
import NicScope.Settings

namespace NicScope

/-- An operation log, with what is remembered of the run that is going on. -/
structure OperationLog where
  path : String
  lockDirectory : String
  started : Moment
  input : String
  deriving DecidableEq, Repr

namespace OperationLog

/-- The size above which the log is moved aside. -/
def maxBytes : Nat := 0x400000

/-- The mode of a new log file. -/
def mode : Nat := 0o640

/-- What ends a record. -/
def recordEnd : String := "\r\n"

/-- A moment as a record begins with it. -/
def stamp (moment : Moment) : String :=
  "[" ++ moment.date ++ " " ++ moment.time ++ "] [" ++ Moment.seconds moment.micros ++ "]"

/-- The notice that the log has been moved to `backup`. -/
def notice (moment : Moment) (backup : String) : String :=
  stamp moment ++ "The old operation log has been backed up to " ++ backup ++ recordEnd

/-- The beginning of a record, with the command line. -/
def inputText (moment : Moment) (arguments : List String) : String :=
  stamp moment ++ "[" ++ " ".intercalate arguments ++ "]"

/-- The end of a record, with the time that the run took and how it ended. -/
def resultText (started ended : Moment) (result : Int) : String :=
  let outcome := if result = 0 then "SUCCEED" else "FAILED"
  "[" ++ ended.time ++ "] [" ++ Moment.seconds (ended.micros - started.micros) ++ "][" ++
    outcome ++ "<" ++ Numeral.signedDecimal result ++ ">]." ++ recordEnd

/-- Puts `text` at the end of the log file, if there is one. -/
def append (log : OperationLog) (text : String) : HostAction Unit := do
  let lock ← FileLock.acquire log.lockDirectory "op_log"
  lock.holding do
    if (← get).files.isPresent log.path then
      Host.onFiles do
        let key ← FileAction.openFile log.path
        FileAction.setMode log.path mode
        FileAction.update key (· ++ text.toUTF8.toList)

/-- Puts `text` at the end of the log file; a failure is noted. -/
def write (log : OperationLog) (text : String) : StateM Host Unit := fun host =>
  match (log.append text).run host with
  | (.ok _, host) => ((), host)
  | (.error _, host) => ((), host.note (.warning "failed to write operation log"))

/-- Opens the log, moving one aside that is too large and making one that is
missing. -/
def start (settings : Settings) : HostAction OperationLog := do
  Host.onFiles (FileAction.ensurePath settings.logDirectory)
  let log : OperationLog :=
    { path := Path.join settings.logDirectory "operations.log"
      lockDirectory := settings.lockDirectory
      started := ← Host.now
      input := "" }
  let backup := Path.join settings.logDirectory "operations.log.old"
  match (← get).files.size log.path with
  | .ok bytes =>
    if bytes > maxBytes then
      Host.onFiles do
        FileAction.rename log.path backup
        let _ ← FileAction.createFile log.path 0o644
        FileAction.setMode log.path mode
      log.write (notice (← Host.now) backup)
  | .error _ =>
    Host.onFiles do
      let _ ← FileAction.createFile log.path 0o644
      FileAction.setMode log.path mode
  return log

/-- Remembers the command line of a run that begins. -/
def recordInput (log : OperationLog) (arguments : List String) : StateM Host OperationLog := do
  let moment ← Host.now
  return { log with started := moment, input := inputText moment arguments }

/-- Writes the record of a run that has ended. -/
def recordResult (log : OperationLog) (result : Int) : StateM Host Unit := do
  let moment ← Host.now
  log.write (log.input ++ resultText log.started moment result)

end OperationLog

end NicScope
