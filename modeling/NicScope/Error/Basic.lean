/-
What can go wrong while a command runs. An error is a cause, possibly of a
further error; its message says what failed, the chain of its causes why, the
nearest first. Each error has a negative error number, which a wrapped error
passes on, so that the number of the innermost failure is what a command returns.
An overflow of the program's own numbers is no error in this sense: it breaks the
run off, so that nothing is reported and no number is returned.
-/

import NicScope.Error.Errno
import NicScope.Wire.Error
import NicScope.Wire.Header

namespace NicScope

open Numeral

/-- The failure of an input or output operation. -/
inductive IoError where
  /-- The system refused the operation. -/
  | system (errno : Errno)
  /-- The operation failed for a reason that has no number. -/
  | other (text : String)
  deriving DecidableEq, Repr

namespace IoError

def message : IoError → String
  | system errno => errno.sentence
  | other text => text

/-- A file that ends before everything asked for is read. -/
def endOfFile : IoError := other "failed to fill whole buffer"

/-- A path with a NUL character, which the system cannot be given. -/
def nulInPath : IoError := other "file name contained an unexpected NUL byte"

/-- An output that takes nothing more. -/
def brokenPipe : IoError := other "broken pipe"

end IoError

inductive Error where
  | commandTooLong
  | unknownCommand
  | repeatedOption (form : String)
  | missingParameter (form : String)
  | unknownOption (token : String)
  /-- A bad value or combination of options, told after the help of the command. -/
  | usage (text : String)
  | invalidArgument (text : String)
  | unsupported (text : String)
  /-- A target that is neither an address nor a usable interface. -/
  | unknownDevice
  | unresolvedDevice (cause : Error)
  | virtualFunction
  | lock (errno : Errno)
  | deviceBusy (holder : UInt32)
  | deviceNotFound (vendor device : UInt16)
  | deviceInit (cause : Error)
  | requestTooLarge (words : Nat)
  | responseTooLarge (words : UInt32)
  /-- The first round of a request did not complete, so that nothing arrived. -/
  | transport (completion : Completion)
  /-- The device delivered a response that says that it failed. -/
  | status (code : Int32)
  | versionMismatch (expected actual : UInt32)
  | blockFailed (block : UInt32) (cause : Error)
  | blockTooLarge (name : String) (destination source size : Nat)
  | stalledEntry (next current : UInt32)
  | entryOverflow (sum block most : UInt32)
  | query (feature : String) (cause : Error)
  | failed (text : String) (cause : Error)
  | decode (cause : DecodeError)
  | wire (cause : WireError)
  | io (cause : IoError)
  | system (errno : Errno)
  /-- A result that does not fit the width of the program's own numbers. -/
  | overflow
  deriving DecidableEq, Repr

namespace Error

/-- Whether the run is broken off. An overflow does that, in whatever words it is put. -/
def breaksOff : Error → Bool
  | overflow => true
  | unresolvedDevice cause => cause.breaksOff
  | deviceInit cause => cause.breaksOff
  | blockFailed _ cause => cause.breaksOff
  | query _ cause => cause.breaksOff
  | failed _ cause => cause.breaksOff
  | _ => false

/-- The negative of an error number. -/
def negative (errno : Errno) : Int :=
  -(errno.number : Int)

/-- The negative error number that an error is reported with. -/
def errno : Error → Int
  | unsupported _ => negative .unsupported
  | lock errno => negative errno
  | system errno => negative errno
  | deviceBusy _ => negative .busy
  | deviceNotFound _ _ => negative .noEntry
  | transport _ => negative .noSpace
  | deviceInit cause => cause.errno
  | blockFailed _ cause => cause.errno
  | query _ cause => cause.errno
  | failed _ cause => cause.errno
  | io (.system errno) => negative errno
  | io (.other _) => negative .inputOutput
  | _ => negative .invalid

/-- Four hexadecimal digits after their mark. -/
def idText (id : UInt16) : String :=
  "0x" ++ paddedHexadecimal 4 id.toNat

def message : Error → String
  | commandTooLong => "Command input too long."
  | unknownCommand => "Unknown major command, try 'hikptool -h' for help."
  | repeatedOption form => "Repeated option " ++ form ++ "."
  | missingParameter form => form ++ " option need parameter."
  | unknownOption token => token ++ " is not option needed."
  | usage text => text
  | invalidArgument text => text
  | unsupported text => text
  | unknownDevice => "unknown device!"
  | unresolvedDevice _ => "unknown device!"
  | virtualFunction => "VF does not support query!"
  | lock _ => "locking failed."
  | deviceBusy holder => "dev lock by other process:" ++ decimal holder.toNat ++ "."
  | deviceNotFound vendor device =>
    "Cannot find Device " ++ idText vendor ++ ":" ++ idText device ++ "."
  | deviceInit _ => "Failed to init RCiEP"
  | requestTooLarge words =>
    "request data num(" ++ decimal words ++ ") exceeds max size(32)."
  | responseTooLarge words =>
    "Response data num[" ++ decimal words.toNat ++ "] out of range[600]."
  | transport completion =>
    "First round failed. Error code:" ++ decimal completion.code.toNat ++ "."
  | status code => "device reported status " ++ signedDecimal code.toInt
  | versionMismatch expected actual =>
    "response version " ++ decimal actual.toNat ++ " does not match " ++ decimal expected.toNat
  | blockFailed block _ => "failed to get block-" ++ decimal block.toNat ++ " context."
  | blockTooLarge name destination source size =>
    name ++ " block context copy size error, dst buffer size=" ++ decimal destination ++
      ", src buffer size=" ++ decimal source ++ ", data size=" ++ decimal size ++ "."
  | stalledEntry next current =>
    "The next entry index (" ++ decimal next.toNat ++
      ") is less than or equal with the curent(" ++ decimal current.toNat ++ ")."
  | entryOverflow sum block most =>
    "The sum of entry number (" ++ decimal sum.toNat ++ ") after block-" ++
      decimal block.toNat ++ " is over the maximum entry number (" ++ decimal most.toNat ++
      ") of this stage."
  | query feature cause =>
    "failed to query " ++ feature ++ " info, ret = " ++ signedDecimal cause.errno ++ "."
  | failed text _ => text
  | decode _ => "Error decoding firmware data"
  | wire _ => "Error encoding or decoding a message"
  | io _ => "I/O error"
  | system _ => "System error"
  | overflow => "attempt to calculate with overflow"

/-- The messages of what an error comes from, the nearest first. -/
def causes : Error → List String
  | unresolvedDevice cause => cause.message :: cause.causes
  | deviceInit cause => cause.message :: cause.causes
  | blockFailed _ cause => cause.message :: cause.causes
  | query _ cause => cause.message :: cause.causes
  | failed _ cause => cause.message :: cause.causes
  | lock errno => [errno.message]
  | system errno => [errno.message]
  | decode (.wire cause) => [DecodeError.message (.wire cause), cause.message]
  | decode cause => [cause.message]
  | wire cause => [cause.message]
  | io cause => [cause.message]
  | _ => []

end Error

/-- A number that has to be below `limit`; beyond it the calculation overflows. -/
def checkedBelow (limit number : Nat) : Except Error Nat :=
  if number < limit then .ok number else .error .overflow

end NicScope
