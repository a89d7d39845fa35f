/-
Commands. A command reads its options into a context of its own, and then holds
a dialogue with the firmware that ends with a dump or an error, so nothing is
shown of what arrived before a failure. It runs under a lock that all runs of the
program share, and the channel to the firmware is opened only when the options
are read and the lock is held. Wrong usage is answered with the help of the
command.
-/

import NicScope.Command.Dump
import NicScope.Options
import NicScope.Text.Column

namespace NicScope

/-- A command of the program. -/
structure Command where
  name : String
  /-- What the command does, in one line. -/
  summary : String
  /-- The help lines of the options. -/
  optionHelp : String
  /-- What the options are read into. -/
  Context : Type
  initial : Context
  /-- The options, which may look at the files of the host below the system root. -/
  options : (files : FileTree) → (systemRoot : String) → List (CommandOption Context)
  /-- What the command asks and shows. -/
  execute : Context → Exchange Dump

namespace Command

variable {τ : Type}

/-! ### Help -/

/-- The usual help line of the option that asks for help. -/
def helpLine : String :=
  "    -h, " ++ Column.left 25 "--help" ++ " display this help and exit\n"

/-- The help of a command. -/
def help (command : Command) : String :=
  "\n  Usage: " ++ command.name ++ " -i <device>\n" ++
    "\n         " ++ command.summary ++ "\n" ++
    "\n  Options:\n\n" ++ command.optionHelp

/-- Shows the help before an error of usage. -/
def explain (command : Command) (cause : Error) : StateM (Session τ) Error :=
  match cause with
  | .usage _ => do
    match ← Session.write command.help with
    | .ok _ => return cause
    | .error failure => return .io failure
  | _ => return cause

/-! ### Options -/

/-- Reads the options of a command line. -/
def parse (command : Command) (settings : Settings) (files : FileTree) (tokens : List String) :
    Except Error OptionOutcome × command.Context :=
  let registry := OptionRegistry.empty.registerAll (command.options files settings.systemRoot)
  (registry.parse tokens).run command.initial

/-! ### Execution -/

/-- The lock that a command holds while it runs. -/
def lockName : String := "op_execute_lock"

/-- Takes the lock; whatever keeps it from being taken is an error of the lock. -/
def acquireLock (settings : Settings) : HostAction FileLock :=
  ExceptT.mk do
    return (← (FileLock.acquire settings.lockDirectory lockName).run).mapError fun
      | .lock errno => .lock errno
      | cause => .lock (.ofNumber (-cause.errno).toNat)

/-- Asks the firmware and shows the dump. -/
def perform (command : Command) (channel : Channel τ) (context : command.Context) :
    Step τ Unit := do
  let dump ← Session.converse channel (command.execute context)
  dump.print

/-- Opens the channel, executes the command and closes the channel however that ends. -/
def connected (command : Command) (channel : Channel τ) (context : command.Context) :
    StateM (Session τ) (Except Error Unit) := do
  match ← Session.onPeer channel.connect with
  | .error cause => return .error (.deviceInit cause)
  | .ok _ =>
    let result ← (command.perform channel context).run
    Session.onPeer fun ends => ((), channel.close ends)
    match result with
    | .ok _ => return .ok ()
    | .error cause => return .error (← command.explain cause)

/-- Executes the command under its lock. -/
def locked (command : Command) (settings : Settings) (channel : Channel τ)
    (context : command.Context) : Step τ Unit := do
  let lock ← Session.attempt (acquireLock settings)
  ExceptT.mk do
    let result ← command.connected channel context
    Session.onHost lock.release
    return result

/-- Runs the command with the tokens that follow its name. -/
def run (command : Command) (settings : Settings) (channel : Channel τ)
    (tokens : List String) : Step τ Unit :=
  ExceptT.mk fun session =>
    match command.parse settings session.host.files tokens with
    | (.error cause, _) =>
      let (cause, session) := command.explain cause session
      (.error cause, session)
    | (.ok .help, _) => (Session.print command.help).run session
    | (.ok .proceed, context) => (command.locked settings channel context).run session

end Command

end NicScope
