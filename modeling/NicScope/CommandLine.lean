/-
The command line of the program: its own options, in front of the words that name
a command. An option takes the next word as its value, unless that is an option
too, or what follows an equals sign in its own word, and may be given once. The
words begin with the first one that is no option; two dashes in front of them are
dropped.
-/

import NicScope.Tool

namespace NicScope

/-- An option of the program itself. -/
inductive ProgramOption where
  | logLevel | logDirectory | lockDirectory | systemRoot
  deriving DecidableEq, Repr

namespace ProgramOption

def all : List ProgramOption := [logLevel, logDirectory, lockDirectory, systemRoot]

def form : ProgramOption → String
  | logLevel => "--log-level"
  | logDirectory => "--log-dir"
  | lockDirectory => "--lock-dir"
  | systemRoot => "--sysfs-root"

/-- The option that a word gives, with its value if that is in the same word. -/
def read? (word : String) : Option (ProgramOption × Option String) :=
  let form := word.toList.takeWhile (· != '=')
  let value := match word.toList.dropWhile (· != '=') with
    | [] => none
    | _ :: value => some (String.ofList value)
  (all.find? fun option => option.form == String.ofList form).map fun option => (option, value)

/-- The names of the log levels, from the gravest on, behind the one that turns the
log off. -/
def levelNames : List String :=
  ["OFF", "CRITICAL", "ERROR", "WARNING", "INFO", "DEBUG", "TRACE"]

/-- The short names of the log levels, in the same order. -/
def shortLevelNames : List String :=
  ["OFF", "CRIT", "ERRO", "WARN", "INFO", "DEBG", "TRCE"]

/-- The place of the first name that begins with `text`, in either case. -/
def placeOf? (names : List String) (text : String) : Option Nat :=
  if text.isEmpty then none
  else names.findIdx? fun name => (text.toList.map Char.toUpper).isPrefixOf name.toList

/-- The place of the level that `text` abbreviates, counted from one; the log cannot
be turned off. -/
def level? (text : String) : Option Nat :=
  match (placeOf? levelNames text).or (placeOf? shortLevelNames text) with
  | some (level + 1) => some (level + 1)
  | _ => none

/-- Whether an option may have a value. -/
def allows (option : ProgramOption) (value : String) : Bool :=
  match option with
  | logLevel => (level? value).isSome
  | logDirectory | lockDirectory | systemRoot => !value.isEmpty

end ProgramOption

/-- A command line that has been read: the options with their values, and the words
of the command. -/
structure CommandLine where
  options : List (ProgramOption × String)
  words : List String
  deriving DecidableEq, Repr

namespace CommandLine

/-- Adds an option, unless it is there already or its value is bad. -/
def add? (options : List (ProgramOption × String)) (option : ProgramOption) (value : String) :
    Option (List (ProgramOption × String)) :=
  if (options.lookup option).isNone && option.allows value then some ((option, value) :: options)
  else none

/-- Reads words behind the options read before; `none` if an option is bad. -/
def readFrom? (options : List (ProgramOption × String)) : List String → Option CommandLine
  | [] => some ⟨options, []⟩
  | word :: rest =>
    match ProgramOption.read? word with
    | some (option, some value) =>
      match add? options option value with
      | some options => readFrom? options rest
      | none => none
    | some (option, none) =>
      match rest with
      | [] => none
      | value :: rest =>
        if value == "--" || (ProgramOption.read? value).isSome then none
        else
          match add? options option value with
          | some options => readFrom? options rest
          | none => none
    | none => some ⟨options, if word == "--" then rest else word :: rest⟩

/-- Reads the words behind the name of the program. -/
def read? (arguments : List String) : Option CommandLine :=
  readFrom? [] arguments

/-- What the options choose. -/
def choices (line : CommandLine) : SettingChoices where
  logDirectory := line.options.lookup .logDirectory
  lockDirectory := line.options.lookup .lockDirectory
  systemRoot := line.options.lookup .systemRoot

/-- The gravity up to which log records are shown; without a choice, warnings are
the least. -/
def verbosity (line : CommandLine) : Nat :=
  ((line.options.lookup .logLevel).bind ProgramOption.level?).getD 3

/-- How the program ends: its exit code, what it wrote, and the host as it leaves it. -/
structure Ending where
  code : UInt8
  output : String
  host : Host

/-- The exit code of a bad command line. -/
def badUsage : UInt8 := 2

/-- The exit code of a run that is broken off. -/
def brokenOff : UInt8 := 101

/-- Runs the program on the device of the host. -/
def runTool (settings : Settings) (words : List String) (host : Host) : Ending :=
  let (tool, host) := (Tool.onHost settings).run host
  let (result, session) := (tool.run (.device settings) (Tool.name :: words)).run
    { host, output := .unlimited, peer := none }
  ⟨(result.map fun number => UInt8.ofNat number.natAbs).getD brokenOff,
    session.output.text?.getD "", session.host⟩

/-- Runs the program with the words behind its name. -/
def run (arguments : List String) (host : Host) : Ending :=
  match read? arguments with
  | none => ⟨badUsage, "", host⟩
  | some line =>
    match line.choices.build with
    | .ok settings => runTool settings line.words host
    | .error cause => ⟨UInt8.ofNat cause.errno.natAbs, "", host⟩

end CommandLine

end NicScope
