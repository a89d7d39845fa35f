/-
Unsigned values as they are given on a command line: in base sixteen behind a
zero and an x, in base eight behind a zero, else in base ten, with blanks and a
sign in front. The whole text must be used up. Only zero may be negative, and an
empty text is zero.
-/

import NicScope.Text.Blank
import NicScope.Text.Numeral

namespace NicScope.Unsigned

/-- Takes a sign off; the first part says whether it was a minus. -/
def splitSign : List Char → Bool × List Char
  | '-' :: rest => (true, rest)
  | '+' :: rest => (false, rest)
  | text => (false, text)

/-- The number that a text without a sign writes. -/
def magnitude? : List Char → Option UInt32
  | '0' :: 'x' :: rest => Numeral.readWord? 16 rest
  | '0' :: 'X' :: rest => Numeral.readWord? 16 rest
  | '0' :: digit :: rest => Numeral.readWord? 8 (digit :: rest)
  | digits => Numeral.readWord? 10 digits

def parse? (text : List Char) : Option UInt32 :=
  if text.isEmpty then some 0
  else
    let (negative, body) := splitSign (Blank.trimStart text)
    match magnitude? body with
    | some value => if negative && value != 0 then none else some value
    | none => none

end NicScope.Unsigned
