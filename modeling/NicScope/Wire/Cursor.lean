/-
A cursor over a little-endian payload. Each access takes the next bytes and
moves past them; an access that asks for more than remains reports how many
bytes it needed and how many there are, and leaves the cursor where it was, so
a shorter access may still succeed.
-/

import NicScope.Wire.Bytes
import NicScope.Wire.Error

namespace NicScope

/-- How far a payload has been read, and what remains of it. -/
structure Cursor where
  position : Nat
  rest : Bytes
  deriving DecidableEq, Repr

/-- A computation that reads from a cursor. The cursor outlives a failure. -/
abbrev Reading := ExceptT DecodeError (StateM Cursor)

namespace Cursor

/-- A cursor at the start of `bytes`. -/
def start (bytes : Bytes) : Cursor :=
  ⟨0, bytes⟩

/-- The length of the whole payload. -/
def length (cursor : Cursor) : Nat :=
  cursor.position + cursor.rest.length

/-- The next `count` bytes. -/
def bytes (count : Nat) : Reading Bytes := fun cursor =>
  let taken := cursor.rest.take count
  if taken.length = count then
    (.ok taken, ⟨cursor.position + count, cursor.rest.drop count⟩)
  else
    (.error (.shortBuffer (cursor.position + count) cursor.length), cursor)

/-- Moves past `count` bytes. -/
def skip (count : Nat) : Reading Unit := do
  let _ ← bytes count

/-- The next `count` bytes, as a vector. -/
def array (count : Nat) : Reading (Vector UInt8 count) := do
  let taken ← bytes count
  return Vector.ofFn fun index => taken.getD index 0

/-- The number written by the next `width` bytes. -/
def number (width : Nat) : Reading Nat := do
  let taken ← bytes width
  return taken.toNat

def byte : Reading UInt8 := do
  return UInt8.ofNat (← number 1)

def half : Reading UInt16 := do
  return UInt16.ofNat (← number 2)

def word : Reading UInt32 := do
  return UInt32.ofNat (← number 4)

def long : Reading UInt64 := do
  return UInt64.ofNat (← number 8)

/-- What is left of the payload. -/
def remaining : Reading Bytes := do
  return (← get).rest

end Cursor

/-- Reads from the start of `payload`. -/
def Reading.parse {α : Type} (reading : Reading α) (payload : Bytes) : Except DecodeError α :=
  (reading.run (Cursor.start payload)).1

/-- A reading of something on values already read, such as a nested payload. -/
def Reading.ofExcept {α : Type} (result : Except DecodeError α) : Reading α :=
  fun cursor => (result, cursor)

end NicScope
