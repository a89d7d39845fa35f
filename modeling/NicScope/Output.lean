/-
The output of the program. It may take only so many bytes; a text that is too
long for what is left breaks it, and a broken output takes nothing more.
-/

import NicScope.Error.Basic

namespace NicScope

inductive Output where
  /-- The text written so far, and how many more bytes are taken, if that is limited. -/
  | intact (text : String) (room : Option Nat)
  | broken
  deriving DecidableEq, Repr

namespace Output

/-- An output that takes everything. -/
def unlimited : Output := intact "" none

/-- An output that takes at most `bytes` bytes. -/
def limited (bytes : Nat) : Output := intact "" (some bytes)

/-- The text written, unless the output is broken. -/
def text? : Output → Option String
  | intact text _ => some text
  | broken => none

/-- Writes a text. -/
def write (output : Output) (added : String) : Except IoError Unit × Output :=
  match output with
  | intact text none => (.ok (), intact (text ++ added) none)
  | intact text (some room) =>
    if added.utf8ByteSize ≤ room then
      (.ok (), intact (text ++ added) (some (room - added.utf8ByteSize)))
    else (.error .brokenPipe, broken)
  | broken => (.error .brokenPipe, broken)

end Output

end NicScope
