/-
Records of fixed size. A table arrives as one record after another; a payload
too short for the records asked for is refused as a whole. Two small values
occur in several tables: an Ethernet address and a bitmap of 256 functions.
-/

import NicScope.Wire.Bits
import NicScope.Wire.Cursor

namespace NicScope

/-- A type read from a fixed number of bytes. -/
class Record (α : Type) where
  size : Nat
  parse : Bytes → Except DecodeError α

namespace Record

variable {α : Type}

/-- Parses the first `count` pieces of `size` bytes. -/
def parsePieces (size : Nat) (parse : Bytes → Except DecodeError α) :
    Nat → Bytes → Except DecodeError (List α)
  | 0, _ => .ok []
  | count + 1, payload => do
    let first ← parse (payload.take size)
    let rest ← parsePieces size parse count (payload.drop size)
    return first :: rest

/-- Parses `count` consecutive records of `size` bytes each. -/
def parseRun (size : Nat) (parse : Bytes → Except DecodeError α) (count : Nat)
    (payload : Bytes) : Except DecodeError (List α) :=
  if payload.length < count * size then .error (.shortBuffer (count * size) payload.length)
  else parsePieces size parse count payload

/-- Parses `count` consecutive records. -/
def parseMany [Record α] (count : Nat) (payload : Bytes) : Except DecodeError (List α) :=
  parseRun (size α) parse count payload

end Record

/-! ### Ethernet addresses -/

structure MacAddress where
  bytes : Vector UInt8 6
  deriving DecidableEq, Repr

def MacAddress.render (address : MacAddress) : String :=
  ":".intercalate (address.bytes.toList.map fun byte => Numeral.paddedHexadecimal 2 byte.toNat)

def MacAddress.read : Reading MacAddress := do
  return ⟨← Cursor.array 6⟩

/-! ### Function bitmaps -/

/-- Which of 256 functions are set, by absolute id; the word of lowest ids first. -/
structure FunctionBitmap where
  words : Vector UInt32 8
  deriving DecidableEq, Repr

namespace FunctionBitmap

/-- Whether the function with this absolute id is set; ids from 256 on are not. -/
def isSet (bitmap : FunctionBitmap) (id : UInt16) : Bool :=
  if inside : id.toNat < 256 then
    (bitmap.words.get ⟨id.toNat / 32, by omega⟩).toNat.testBit (id.toNat % 32)
  else false

/-- The words in hexadecimal, the one of highest ids first. -/
def render (bitmap : FunctionBitmap) : String :=
  ":".intercalate
    (bitmap.words.toList.reverse.map fun word => Numeral.paddedHexadecimal 8 word.toNat)

def read : Reading FunctionBitmap := do
  return ⟨#v[← Cursor.word, ← Cursor.word, ← Cursor.word, ← Cursor.word,
    ← Cursor.word, ← Cursor.word, ← Cursor.word, ← Cursor.word]⟩

end FunctionBitmap

end NicScope
