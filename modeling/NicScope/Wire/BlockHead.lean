/-
Block heads. A table that is larger than one response comes in blocks, and a
response begins with a head that says how many blocks there are and how many
bytes of this one follow. A head of a paged table also counts the entries in
the block and names the entry to ask for next. A head and its payload fill one
round of a response, 60 words.
-/

import NicScope.Wire.Layout

namespace NicScope

/-- A layout that can head a block. -/
class BlockHead (η : Type) extends Layout η where
  /-- The payload words that a response has room for behind this head. -/
  dataWords : Nat
  totalBlocks : η → UInt8
  blockSize : η → UInt8
  nextEntry : η → UInt32
  entryCount : η → UInt32

/-- The most payload bytes that one block carries. -/
def BlockHead.maxBlockSize (η : Type) [BlockHead η] : Nat :=
  BlockHead.dataWords η * Bytes.wordSize

/-- The head of a block without entries. -/
structure PlainHead where
  total : UInt8
  size : UInt8
  reserved : UInt16
  deriving DecidableEq, Repr

instance : BlockHead PlainHead where
  size := 4
  fields head := [.byte head.total, .byte head.size, .half head.reserved]
  read := return ⟨← Cursor.byte, ← Cursor.byte, ← Cursor.half⟩
  dataWords := 59
  totalBlocks := PlainHead.total
  blockSize := PlainHead.size
  nextEntry _ := 0
  entryCount _ := 0

/-- The head of a block of a port table. -/
structure EntryHead where
  total : UInt8
  size : UInt8
  reserved : UInt16
  next : UInt32
  count : UInt32
  deriving DecidableEq, Repr

instance : BlockHead EntryHead where
  size := 12
  fields head :=
    [.byte head.total, .byte head.size, .half head.reserved, .word head.next, .word head.count]
  read :=
    return ⟨← Cursor.byte, ← Cursor.byte, ← Cursor.half, ← Cursor.word, ← Cursor.word⟩
  dataWords := 57
  totalBlocks := EntryHead.total
  blockSize := EntryHead.size
  nextEntry := EntryHead.next
  entryCount := EntryHead.count

/-- The head of a block of the flow director, whose entry count has 16 bits. -/
structure DirectorHead where
  total : UInt8
  size : UInt8
  reservedLow : UInt16
  next : UInt32
  count : UInt16
  reservedHigh : UInt16
  deriving DecidableEq, Repr

instance : BlockHead DirectorHead where
  size := 12
  fields head :=
    [.byte head.total, .byte head.size, .half head.reservedLow, .word head.next,
      .half head.count, .half head.reservedHigh]
  read :=
    return ⟨← Cursor.byte, ← Cursor.byte, ← Cursor.half, ← Cursor.word, ← Cursor.half,
      ← Cursor.half⟩
  dataWords := 57
  totalBlocks := DirectorHead.total
  blockSize := DirectorHead.size
  nextEntry := DirectorHead.next
  entryCount head := head.count.toUInt32

/-- Splits a response into its head and what follows it. -/
def decodeHead (η : Type) [BlockHead η] (bytes : Bytes) : Except WireError (η × Bytes) :=
  if bytes.length < Layout.size η then
    .error (.responseTooShort (UInt32.ofNat bytes.length))
  else
    match (Layout.read : Reading η).run (Cursor.start bytes) with
    | (.ok head, cursor) => .ok (head, cursor.rest)
    | (.error _, _) => .error .decode

end NicScope
