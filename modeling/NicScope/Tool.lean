/-
The program as a whole. It shows its help or its version, or finds the command
that is named, runs it and reports how it failed; what it returns is the error
number of the failure. Every run is entered in the operation log, but for those
that only show help or version; a log that cannot be kept hinders nothing. A run
that is broken off reports nothing, returns nothing and is not entered.
-/

import NicScope.Chip
import NicScope.Command.Director
import NicScope.Command.Port
import NicScope.Command.Scaling
import NicScope.OperationLog

namespace NicScope

/-- The program on a chip. -/
structure Tool where
  settings : Settings
  chip : Chip
  deriving DecidableEq, Repr

namespace Tool

variable {τ : Type}

def name : String := "hikptool"

def version : String := "1.1.4"

/-- Every command, whether or not the chip supports it. -/
def commands : List Command := [directorCommand, portCommand, scalingCommand]

/-- The program on the chip of the host. -/
def onHost (settings : Settings) : StateM Host Tool := do
  return ⟨settings, ← Chip.detect settings.systemRoot⟩

/-! ### Commands -/

/-- The commands that the chip supports, in the order of their names. -/
def available (tool : Tool) : List Command :=
  (commands.filter fun command => tool.chip.supports command.name).mergeSort
    fun first second => decide (first.name ≤ second.name)

/-- The command with this name, if the chip supports it. -/
def lookup (tool : Tool) (wanted : String) : Option Command :=
  commands.find? fun command => command.name == wanted && tool.chip.supports command.name

/-- Refuses a command line whose words have more than `most` bytes together. -/
def checkLength (arguments : List String) (most : Nat) : Except Error Unit :=
  let length := arguments.foldr (fun argument length => argument.utf8ByteSize + length) 0
  if length > most then .error .commandTooLong else .ok ()

/-! ### Help and version -/

def helpText (tool : Tool) : String :=
  "\n  Usage: " ++ name ++ " <major_cmd> [option]\n\n" ++
    "    -h, --help    show help information\n" ++
    "    -v, --version show version information\n" ++
    "\n  Major Commands:\n\n" ++
    String.join (tool.available.map fun command =>
      "    " ++ Column.left 23 command.name ++ "  " ++ command.summary ++ "\n") ++ "\n"

def versionText (tool : Tool) : String :=
  name ++ " version " ++ version ++ " Huawei HW(" ++ Numeral.decimal tool.chip.id.toNat ++ ")\n"

/-- What is shown for a command line that asks for no command. -/
def information? (tool : Tool) (arguments : List String) : Option String :=
  match arguments with
  | [] => some tool.helpText
  | [_] => some tool.helpText
  | [_, option] =>
    if option == "-h" || option == "--help" then some tool.helpText
    else if option == "-v" || option == "--version" then some tool.versionText
    else none
  | _ => none

/-! ### Running a command -/

/-- Runs the command that the command line names. -/
def dispatch (tool : Tool) (channel : Channel τ) (arguments : List String) : Step τ Unit :=
  match arguments[1]?.bind tool.lookup with
  | none => throw .unknownCommand
  | some command =>
    match checkLength arguments tool.settings.maxCommandBytes with
    | .error cause => throw cause
    | .ok _ => command.run tool.settings channel (arguments.drop 2)

/-- The line of a report that names the error itself. -/
def headline (cause : Error) : String :=
  match cause with
  | .unknownCommand | .deviceInit _ => cause.message
  | _ => name ++ " command error(" ++ Numeral.signedDecimal cause.errno ++ "): " ++ cause.message

/-- The report of an error, with what led to it, the first cause first. -/
def reportText (cause : Error) : String :=
  Dump.lines ((cause.causes.reverse ++ [headline cause]).map ("[ ERROR ] " ++ ·))

/-- Reports an error. -/
def report (cause : Error) : StateM (Session τ) (Except IoError Unit) :=
  Session.write (reportText cause)

/-- What a run returns for how its command ended. A failure is reported first; a run that is
broken off returns nothing. -/
def conclude (result : Except Error Unit) : StateM (Session τ) (Option Int) :=
  match result with
  | .ok _ => return some 0
  | .error cause => do
    if cause.breaksOff then return none
    match ← report cause with
    | .ok _ => return some cause.errno
    | .error _ =>
      modify (Session.note (.error "failed to report error"))
      return some cause.errno

/-- Runs the command that is named and reports a failure. -/
def execute (tool : Tool) (channel : Channel τ) (arguments : List String) :
    StateM (Session τ) (Option Int) := do
  conclude (← (tool.dispatch channel arguments).run)

/-! ### The operation log -/

/-- Opens the operation log and remembers the command line; a log that cannot be
opened is noted and left alone. -/
def openLog (tool : Tool) (arguments : List String) : StateM Host (Option OperationLog) := do
  match ← (OperationLog.start tool.settings).run with
  | .ok log => return some (← log.recordInput arguments)
  | .error _ =>
    modify (Host.note · (.warning "operation log unavailable"))
    return none

/-- Enters how the run ended, unless it was broken off. -/
def closeLog (log : Option OperationLog) (result : Option Int) : StateM Host Unit :=
  match log, result with
  | some log, some result => log.recordResult result
  | _, _ => return

/-! ### Running the program -/

/-- Shows a text, and returns the number of the failure if it cannot be written. -/
def inform (text : String) : StateM (Session τ) (Option Int) := do
  match ← Session.write text with
  | .ok _ => return some 0
  | .error failure => return some (Error.io failure).errno

/-- Runs the program with a command line, its own name first, and returns an
error number unless the run is broken off. -/
def run (tool : Tool) (channel : Channel τ) (arguments : List String) :
    StateM (Session τ) (Option Int) := do
  let log ← Session.onHost (tool.openLog arguments)
  match tool.information? arguments with
  | some text => inform text
  | none =>
    let result ← tool.execute channel arguments
    Session.onHost (closeLog log result)
    return result

end Tool

end NicScope
