/-
What the commands fetch from the device: a blob of fixed capacity, filled up with
zeroes where fewer bytes arrive, a record read from such a blob, and the records
of a table. A block that cannot be fetched is named in the error; a page of a
table is not.
-/

import NicScope.Tables.Record
import NicScope.Transfer.Entries

namespace NicScope

namespace Fetch

variable {ρ α : Type}

/-- Puts an error in the words of whoever asked. -/
def withCause (describe : Error → Error) (exchange : Exchange α) : Exchange α :=
  ExceptT.mk (exchange.run.bind fun result => .done (result.mapError describe))

/-- Goes on with a result that may already be an error. -/
def fromExcept (result : Except Error α) : Exchange α :=
  ExceptT.mk (.done result)

/-- Sends the request for one block. -/
def block [Layout ρ] (header : Header) (request : UInt8 → ρ) (index : UInt8) :
    Dialogue Query Reply Reply :=
  (query header (request index)).bind fun reply =>
    .done (reply.mapError (.blockFailed index.toUInt32))

/-- A blob of `capacity` bytes. -/
def blob (η : Type) [BlockHead η] [Layout ρ] (name : String) (header : Header) (capacity : Nat)
    (request : UInt8 → ρ) : Exchange Bytes :=
  ExceptT.mk <|
    ((readBlocks η name capacity).reword (block header request)).bind fun result =>
      .done (result.map (Bytes.resize capacity))

/-- A record that comes as a blob. -/
def record (η : Type) [BlockHead η] [Layout ρ] [Record α] (name : String) (header : Header)
    (request : UInt8 → ρ) : Exchange α := do
  let payload ← blob η name header (Record.size α) request
  fromExcept ((Record.parse payload).mapError .decode)

/-- The entries of a table, whose records `parse` reads, given how many there are. -/
def table (η : Type) [BlockHead η] [Layout ρ] (name : String) (header : Header)
    (paging : Paging) (request : UInt32 → ρ)
    (parse : Nat → Bytes → Except DecodeError (List α)) : Exchange (List α) := do
  let entries ← ExceptT.mk <|
    (readEntries η name paging).reword fun index => query header (request index)
  fromExcept ((parse entries.count.toNat entries.data).mapError .decode)

end Fetch

end NicScope
