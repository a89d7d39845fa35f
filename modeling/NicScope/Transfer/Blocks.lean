/-
Reading a blob that comes in numbered blocks. Block 0 says how many there are;
the others are asked for in order. A block that declares more bytes than the
blob has room for, or than any block can carry, is refused, and so is one that
carries less than it declares; what is read never exceeds the capacity. Whether
there is memory for as many bytes is not modelled.
-/

import NicScope.Transfer.Response
import NicScope.Wire.BlockHead

namespace NicScope

/-- Splits a response into its head and the payload bytes that the head declares,
of which there may be at most `room`. -/
def blockPayload (η : Type) [BlockHead η] (name : String) (room : Nat) (response : Response) :
    Except Error (η × Bytes) :=
  let bytes := response.bytes
  match decodeHead η bytes with
  | .error cause => .error (.wire cause)
  | .ok (head, payload) =>
    let size := (BlockHead.blockSize head).toNat
    if size > room || size > BlockHead.maxBlockSize η then
      .error (.blockTooLarge name room (BlockHead.maxBlockSize η) size)
    else if payload.length < size then
      .error (.wire (.responseTooShort (UInt32.ofNat bytes.length)))
    else .ok (head, payload.take size)

/-- Reads `count` blocks from `block` on, behind the bytes already `kept`. -/
def readBlocksFrom (η : Type) [BlockHead η] (name : String) (capacity : Nat) :
    (count block : Nat) → (kept : Bytes) → Dialogue UInt8 Reply (Except Error Bytes)
  | 0, _, kept => .done (.ok kept)
  | count + 1, block, kept =>
    .ask (UInt8.ofNat block) fun reply =>
      match reply.bind (blockPayload η name (capacity - kept.length)) with
      | .error cause => .done (.error cause)
      | .ok (_, payload) => readBlocksFrom η name capacity count (block + 1) (kept ++ payload)

/-- Reads a blob of at most `capacity` bytes. A first block that counts no blocks
stands for an empty blob. -/
def readBlocks (η : Type) [BlockHead η] (name : String) (capacity : Nat) :
    Dialogue UInt8 Reply (Except Error Bytes) :=
  .ask 0 fun reply =>
    match reply.bind (blockPayload η name capacity) with
    | .error cause => .done (.error cause)
    | .ok (head, payload) =>
      match (BlockHead.totalBlocks head).toNat with
      | 0 => .done (.ok [])
      | count + 1 => readBlocksFrom η name capacity count 1 payload

end NicScope
