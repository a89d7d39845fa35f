/-
Reading a table of entries page by page. Each request names an entry, and the
block that answers says how many entries it holds and which entry to ask for
next. That entry must come after the one asked for, so the reading ends; the
entries are counted, and a block that counts beyond the size of the table is
refused. Entries land one after another whatever the sizes of their blocks;
what follows them in a block is dropped. The sizes of what is read are numbers
of 64 bits, which a table of wide entries overflows; whether there is as much
memory is not modelled.
-/

import NicScope.Transfer.Blocks
import NicScope.Wire.Bits

namespace NicScope

/-- Which entries of a table to read. -/
structure Paging where
  /-- The first entry to ask for. -/
  start : UInt32
  /-- Whether to stop after one block. -/
  single : Bool
  /-- How many entries the hardware says the table has. -/
  entries : UInt32
  /-- The bytes of one entry. -/
  entrySize : Nat
  deriving DecidableEq, Repr

namespace Paging

/-- All of a table. -/
def all (entries : UInt32) (entrySize : Nat) : Paging :=
  ⟨0, false, entries, entrySize⟩

/-- The block that holds one entry. -/
def one (index entries : UInt32) (entrySize : Nat) : Paging :=
  ⟨index, true, entries, entrySize⟩

end Paging

/-- The entries read so far: their bytes, and their number as it was counted. -/
structure EntryRun where
  data : Bytes
  count : UInt32
  deriving DecidableEq, Repr

namespace EntryRun

def empty : EntryRun := ⟨[], 0⟩

/-- Puts a payload at `start` into data of `start + size` bytes; zeroes fill what
the payload leaves open. -/
def place (data : Bytes) (start size : Nat) (payload : Bytes) : Bytes :=
  let room := Bytes.resize (start + size) data
  let kept := payload.take size
  room.take start ++ kept ++ room.drop (start + kept.length)

/-- The bytes that a table has room for behind the entries read so far. -/
def room (paging : Paging) (run : EntryRun) : Nat :=
  (paging.entries.toNat - run.count.toNat) * paging.entrySize

/-- Takes in the response for the entry `index`, which has `room` for its bytes, and
names the entry to ask for next, which comes after it. -/
def accept (η : Type) [BlockHead η] (name : String) (paging : Paging) (index : UInt32)
    (room : Nat) (run : EntryRun) (response : Response) :
    Except Error (EntryRun × { next : UInt32 // index < next }) :=
  match blockPayload η name room response with
  | .error cause => .error cause
  | .ok (head, payload) =>
    let next := BlockHead.nextEntry head
    if advances : index < next then
      let sum := Bits.saturatingAdd run.count (BlockHead.entryCount head)
      if sum > paging.entries then .error (.entryOverflow sum index paging.entries)
      else
        let start := run.count.toNat * paging.entrySize
        let size := (BlockHead.entryCount head).toNat * paging.entrySize
        match checkedBelow UInt64.size (start + size) with
        | .error cause => .error cause
        | .ok _ => .ok (⟨place run.data start size payload, sum⟩, ⟨next, advances⟩)
    else .error (.stalledEntry next index)

end EntryRun

/-- Reads on from the entry `index`, behind the entries already read. The room for them
is calculated before each question. -/
def readEntriesFrom (η : Type) [BlockHead η] (name : String) (paging : Paging) (index : UInt32)
    (run : EntryRun) : Dialogue UInt32 Reply (Except Error EntryRun) :=
  if _ : index < paging.entries then
    match checkedBelow UInt64.size (run.room paging) with
    | .error cause => .done (.error cause)
    | .ok room =>
      .ask index fun reply =>
        match reply.bind (EntryRun.accept η name paging index room run) with
        | .error cause => .done (.error cause)
        | .ok (run, next) =>
          if paging.single then .done (.ok run)
          else readEntriesFrom η name paging next.val run
  else .done (.ok run)
termination_by paging.entries.toNat - index.toNat
decreasing_by
  have advances := UInt32.lt_iff_toNat_lt.mp next.property
  have bound := UInt32.lt_iff_toNat_lt.mp ‹index < paging.entries›
  omega

/-- Reads the entries that `paging` asks for. -/
def readEntries (η : Type) [BlockHead η] (name : String) (paging : Paging) :
    Dialogue UInt32 Reply (Except Error EntryRun) :=
  readEntriesFrom η name paging paging.start .empty

end NicScope
