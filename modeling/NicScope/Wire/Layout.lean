/-
Fixed layouts. A value with a fixed layout is written field by field, each
field little-endian, without padding between them, and read back the same way.
A request is written into whole words, of which at most 32 fit behind a header.
-/

import NicScope.Wire.Cursor

namespace NicScope

/-- One field of a layout. -/
inductive Field where
  | byte (value : UInt8)
  | half (value : UInt16)
  | word (value : UInt32)
  deriving DecidableEq, Repr

namespace Field

def size : Field → Nat
  | byte _ => 1
  | half _ => 2
  | word _ => 4

def bytes : Field → Bytes
  | byte value => Bytes.ofNat 1 value.toNat
  | half value => Bytes.ofNat 2 value.toNat
  | word value => Bytes.ofNat 4 value.toNat

/-- The bytes that fields take together. -/
def totalSize (fields : List Field) : Nat :=
  fields.foldr (fun field size => field.size + size) 0

end Field

/-- A type whose values are laid out in the same number of bytes each. -/
class Layout (α : Type) where
  size : Nat
  fields : α → List Field
  read : Reading α

/-- The bytes of a list of fields, in order. -/
def Field.layOut (fields : List Field) : Bytes :=
  fields.flatMap Field.bytes

/-- The bytes of a value. -/
def Layout.bytes {α : Type} [Layout α] (value : α) : Bytes :=
  Field.layOut (Layout.fields value)

namespace Request

/-- The most words that fit behind a header. -/
def maxWords : Nat := 32

/-- The words of a request made of `fields`. -/
def ofFields (fields : List Field) : Except WireError (List UInt32) :=
  let count := Bytes.wordsFor (Field.totalSize fields)
  if count > maxWords then .error (.requestTooLarge (UInt32.ofNat count))
  else .ok (Field.layOut fields).toWords

/-- The words of a request. -/
def encode {α : Type} [Layout α] (request : α) : Except WireError (List UInt32) :=
  ofFields (Layout.fields request)

end Request

end NicScope
