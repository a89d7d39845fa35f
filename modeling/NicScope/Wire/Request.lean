/-
The requests of the network commands. Each names the function that it is about
and the block that it asks for; the entry-indexed ones also say which entry
comes first.
-/

import NicScope.Wire.Address
import NicScope.Wire.Header
import NicScope.Wire.Layout

namespace NicScope

instance : Layout PciAddress where
  size := 8
  fields address := [.word address.domain, .word address.packed]
  read := return ⟨← Cursor.word, ← Cursor.word⟩

instance : Layout Header where
  size := 16
  fields header := header.words.map .word
  read := return ⟨← Cursor.word, ← Cursor.word, ← Cursor.word, ← Cursor.word⟩

/-- Asks for one block of a packet filter table of a port. -/
structure PortRequest where
  address : PciAddress
  block : UInt8
  /-- Chooses the unicast addresses, or the port table of VLANs. -/
  unicast : UInt8
  reserved : Vector UInt8 2
  entry : UInt32
  deriving DecidableEq, Repr

instance : Layout PortRequest where
  size := 16
  fields request :=
    Layout.fields request.address ++ [.byte request.block, .byte request.unicast] ++
      request.reserved.toList.map .byte ++ [.word request.entry]
  read := return ⟨← Layout.read, ← Cursor.byte, ← Cursor.byte, ← Cursor.array 2, ← Cursor.word⟩

/-- Asks for one block of the state of the flow director. -/
structure DirectorRequest where
  address : PciAddress
  block : UInt8
  /-- The lookup stage, counted from zero. -/
  stage : UInt8
  single : UInt8
  reserved : UInt8
  entry : UInt32
  deriving DecidableEq, Repr

instance : Layout DirectorRequest where
  size := 16
  fields request :=
    Layout.fields request.address ++
      [.byte request.block, .byte request.stage, .byte request.single, .byte request.reserved,
        .word request.entry]
  read :=
    return ⟨← Layout.read, ← Cursor.byte, ← Cursor.byte, ← Cursor.byte, ← Cursor.byte,
      ← Cursor.word⟩

/-- Asks for one block of the configuration of receive-side scaling. -/
structure ScalingRequest where
  address : PciAddress
  block : UInt8
  reserved : Vector UInt8 3
  deriving DecidableEq, Repr

instance : Layout ScalingRequest where
  size := 12
  fields request :=
    Layout.fields request.address ++ [.byte request.block] ++
      request.reserved.toList.map .byte
  read := return ⟨← Layout.read, ← Cursor.byte, ← Cursor.array 3⟩

end NicScope
