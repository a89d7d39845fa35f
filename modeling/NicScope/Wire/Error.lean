/-
What can go wrong with bytes: a request that does not fit its words, a response
too short for its head, a payload too short for a record, an index or a count
out of range.
-/

import NicScope.Text.Numeral

namespace NicScope

open Numeral

/-- The cause of a request or a response head being refused. -/
inductive WireError where
  | requestTooLarge (words : UInt32)
  | responseTooShort (bytes : UInt32)
  | encode
  | decode
  deriving DecidableEq, Repr

/-- The cause of a payload being refused. -/
inductive DecodeError where
  | shortBuffer (need available : Nat)
  | bitOutOfRange
  | illegalFunctionCount (count : UInt16)
  | wire (cause : WireError)
  deriving DecidableEq, Repr

def WireError.message : WireError → String
  | .requestTooLarge words =>
    "request data num(" ++ decimal words.toNat ++ ") exceeds max size(32)"
  | .responseTooShort bytes =>
    "response of " ++ decimal bytes.toNat ++ " bytes is too short for its head"
  | .encode => "failed to encode message"
  | .decode => "failed to decode message"

def DecodeError.message : DecodeError → String
  | .shortBuffer need available =>
    "Payload of " ++ decimal available ++ " bytes is too short, need " ++ decimal need ++ " bytes"
  | .bitOutOfRange => "Bit index out of range"
  | .illegalFunctionCount count =>
    "Illegal function num(" ++ decimal count.toNat ++ ") from firmware."
  | .wire _ => "Management or messaging error"

end NicScope
