/-
The options of a command. An option has a short and a long form, one of which a
token must equal; there are no abbreviations. It may take the next token as its
parameter, unless that looks like an option, and may be given once. Tokens are
taken from left to right, and each option is handled as soon as it is read.
-/

import NicScope.Error.Basic
import NicScope.Log
import NicScope.Text.Unsigned

namespace NicScope

/-- Reading options changes a context, and may fail. -/
abbrev OptionAction (γ : Type) := ExceptT Error (StateM γ)

/-- An option of a command that is put together in a `γ`. -/
structure CommandOption (γ : Type) where
  short : String
  long : String
  takesParameter : Bool
  /-- What the option does, given its parameter. -/
  handle : Option String → OptionAction γ Unit

/-- How the options were read to their end. -/
inductive OptionOutcome where
  /-- All tokens were read. -/
  | proceed
  /-- The help of the command is asked for. -/
  | help
  deriving DecidableEq, Repr

namespace CommandOption

variable {γ : Type}

/-- Whether `token` is one of the forms of the option. -/
def isGivenBy (option : CommandOption γ) (token : String) : Bool :=
  token == option.short || token == option.long

/-- Whether the option asks for help, so that reading stops after it. -/
def isHelp (option : CommandOption γ) : Bool :=
  option.short == "-h" || option.long == "--help"

/-- The usual option that asks for help. -/
def help : CommandOption γ :=
  ⟨"-h", "--help", false, fun _ => return⟩

end CommandOption

/-- The options of a command in the order in which they were registered, and the
complaints about those that were not. -/
structure OptionRegistry (γ : Type) where
  options : List (CommandOption γ)
  log : List LogRecord

namespace OptionRegistry

variable {γ : Type}

def empty : OptionRegistry γ := ⟨[], []⟩

/-- The most options of one command. -/
def maxOptions : Nat := 64

/-- Adds an option behind the others. One without any form, or one too many, is
left out. -/
def register (registry : OptionRegistry γ) (option : CommandOption γ) : OptionRegistry γ :=
  if option.short.isEmpty && option.long.isEmpty then
    { registry with log := registry.log ++ [.error "Invalid input parameter."] }
  else if registry.options.length ≥ maxOptions then
    { registry with log := registry.log ++ [.error "Do not support more than 64 options"] }
  else { registry with options := registry.options ++ [option] }

def registerAll (registry : OptionRegistry γ) (options : List (CommandOption γ)) :
    OptionRegistry γ :=
  options.foldl register registry

/-- Whether a token looks like an option, and so is no parameter. -/
def looksLikeOption (token : String) : Bool :=
  token.toList.head? == some '-'

/-- Reads tokens; `seen` has the positions of the options read before. -/
def parseFrom (options : List (CommandOption γ)) :
    (seen : List Nat) → List String → OptionAction γ OptionOutcome
  | _, [] => return .proceed
  | seen, token :: rest =>
    match options.zipIdx.find? fun entry => entry.1.isGivenBy token with
    | none => throw (.unknownOption token)
    | some (option, index) =>
      if seen.contains index then throw (.repeatedOption option.short)
      else if option.takesParameter then
        match rest with
        | [] => throw (.missingParameter option.short)
        | parameter :: rest =>
          if looksLikeOption parameter then throw (.missingParameter option.short)
          else do
            option.handle (some parameter)
            if option.isHelp then return .help
            parseFrom options (index :: seen) rest
      else do
        option.handle none
        if option.isHelp then return .help
        parseFrom options (index :: seen) rest

/-- Reads the tokens of a command line into the context of the command. -/
def parse (registry : OptionRegistry γ) (tokens : List String) : OptionAction γ OptionOutcome :=
  parseFrom registry.options [] tokens

end OptionRegistry

/-- Reads the parameter of an option that takes an unsigned value. -/
def unsignedParameter (text : String) : Except Error UInt32 :=
  match Unsigned.parse? text.toList with
  | some value => .ok value
  | none => .error (.invalidArgument ("invalid unsigned value '" ++ text ++ "'"))

/-- The unsigned value of a parameter, or a complaint of the option. A missing
parameter counts as an empty one. -/
def requireUnsigned (argument : Option String) (complaint : String) : Except Error UInt32 :=
  (unsignedParameter (argument.getD "")).mapError fun _ => .invalidArgument complaint

end NicScope
