/-
Receive-side scaling. A hash over some fields of a packet, chosen for each type
of packet, picks an entry of the redirection table, which names a queue of the
packet's traffic class.
-/

import NicScope.Tables.Record

namespace NicScope

open Numeral

/-! ### The hash -/

inductive HashAlgorithm where
  | toeplitz
  | simpleXor
  | symmetricToeplitz
  | unknown (code : UInt8)
  deriving DecidableEq, Repr

namespace HashAlgorithm

def ofCode (code : UInt8) : HashAlgorithm :=
  match code.toNat with
  | 0 => toeplitz
  | 1 => simpleXor
  | 2 => symmetricToeplitz
  | _ => unknown code

def code : HashAlgorithm → UInt8
  | toeplitz => 0
  | simpleXor => 1
  | symmetricToeplitz => 2
  | unknown code => code

def render : HashAlgorithm → String
  | toeplitz => "Toeplitz"
  | simpleXor => "Simple-XOR"
  | symmetricToeplitz => "Symmetric Toeplitz"
  | unknown _ => "unknown"

/-- The algorithm named by the first byte. -/
def parse : Bytes → Except DecodeError HashAlgorithm :=
  Reading.parse do return ofCode (← Cursor.byte)

end HashAlgorithm

/-- The longest hash key. -/
def maxHashKey : Nat := 128

/-- The key of the hash, with the length that the firmware states for it. -/
structure HashKey where
  length : UInt16
  key : Vector UInt8 128
  deriving DecidableEq, Repr

namespace HashKey

/-- Whether the stated length is more than there can be. -/
def isTruncated (key : HashKey) : Bool :=
  decide (key.length.toNat > maxHashKey)

/-- The bytes of the key, at most `maxHashKey`. -/
def bytes (key : HashKey) : Bytes :=
  key.key.toList.take key.length.toNat

end HashKey

instance : Record HashKey where
  size := 4 + maxHashKey
  parse := Reading.parse do
    let length ← Cursor.half
    Cursor.skip 2
    let key ← Cursor.array 128
    return ⟨length, key⟩

/-! ### Packet types -/

/-- A type of packet whose hashed fields are chosen on their own. -/
inductive PacketType where
  | ipv4Fragment | ipv4Tcp | ipv4Udp | ipv4Sctp | ipv4Other
  | ipv6Fragment | ipv6Tcp | ipv6Udp | ipv6Sctp | ipv6Other
  deriving DecidableEq, Repr

namespace PacketType

def all : List PacketType :=
  [ipv4Fragment, ipv4Tcp, ipv4Udp, ipv4Sctp, ipv4Other, ipv6Fragment, ipv6Tcp, ipv6Udp, ipv6Sctp,
    ipv6Other]

def name : PacketType → String
  | ipv4Fragment => "ipv4-frag"
  | ipv4Tcp => "ipv4-tcp"
  | ipv4Udp => "ipv4-udp"
  | ipv4Sctp => "ipv4-sctp"
  | ipv4Other => "ipv4-other"
  | ipv6Fragment => "ipv6-frag"
  | ipv6Tcp => "ipv6-tcp"
  | ipv6Udp => "ipv6-udp"
  | ipv6Sctp => "ipv6-sctp"
  | ipv6Other => "ipv6-other"

/-- Where the bits of a type's address family begin. -/
def familyShift : PacketType → Nat
  | ipv4Fragment | ipv4Tcp | ipv4Udp | ipv4Sctp | ipv4Other => 0
  | ipv6Fragment | ipv6Tcp | ipv6Udp | ipv6Sctp | ipv6Other => 32

/-- The fields of a type in the order in which they are shown, each with its bit
in the half of its address family. -/
def fields : PacketType → List (Nat × String)
  | ipv4Fragment | ipv6Fragment => [(16, "IP_S"), (15, "IP_D")]
  | ipv4Tcp | ipv6Tcp => [(3, "IP_S"), (2, "IP_D"), (1, "TCP_S"), (0, "TCP_D")]
  | ipv4Udp | ipv6Udp => [(7, "IP_S"), (6, "IP_D"), (5, "UDP_S"), (4, "UDP_D")]
  | ipv4Sctp | ipv6Sctp =>
    [(11, "IP_S"), (10, "IP_D"), (9, "SCTP_S"), (8, "SCTP_D"), (12, "SCTP_VTAG")]
  | ipv4Other | ipv6Other => [(14, "IP_S"), (13, "IP_D")]

/-- The bits of a type. -/
def mask (type : PacketType) : UInt64 :=
  UInt64.ofNat (type.fields.foldr (fun field bits => (1 <<< (field.1 + type.familyShift)) + bits) 0)

end PacketType

/-- The hashed fields of every packet type. -/
structure HashedFields where
  bits : UInt64
  deriving DecidableEq, Repr

namespace HashedFields

def isDisabled (hashed : HashedFields) : Bool :=
  hashed.bits == 0

/-- The fields of `type`, by name where they are hashed and empty where not;
`none` if none of them is. -/
def enabled? (hashed : HashedFields) (type : PacketType) : Option (List String) :=
  if hashed.bits &&& type.mask = 0 then none
  else some (type.fields.map fun field =>
    if hashed.bits.toNat.testBit (field.1 + type.familyShift) then field.2 else "")

def render (hashed : HashedFields) : String :=
  "0x" ++ paddedHexadecimal 16 hashed.bits.toNat

end HashedFields

instance : Record HashedFields where
  size := 16
  parse := Reading.parse do
    let bits ← Cursor.long
    Cursor.skip 8
    return ⟨bits⟩

/-! ### Queues -/

/-- The largest redirection table. -/
def maxRedirections : Nat := 2048

/-- The largest piece of information, a redirection table with its size. -/
def maxScalingBytes : Nat := 4 + 2 * maxRedirections

/-- The redirection table, with the size that the firmware states for it. -/
structure RedirectionTable where
  size : UInt16
  queues : List UInt16
  deriving DecidableEq, Repr

namespace RedirectionTable

/-- Whether the stated size is more than there can be. -/
def isTruncated (table : RedirectionTable) : Bool :=
  decide (table.size.toNat > maxRedirections)

/-- The entries of the table, at most `maxRedirections`. -/
def entries (table : RedirectionTable) : List UInt16 :=
  table.queues.take table.size.toNat

end RedirectionTable

/-- The next `count` halves. -/
def readHalves : Nat → Reading (List UInt16)
  | 0 => return []
  | count + 1 => do
    let first ← Cursor.half
    let rest ← readHalves count
    return first :: rest

instance : Record RedirectionTable where
  size := maxScalingBytes
  parse := Reading.parse do
    let size ← Cursor.half
    Cursor.skip 2
    let queues ← readHalves maxRedirections
    return ⟨size, queues⟩

/-- The queues of one traffic class. -/
structure TrafficClass where
  offset : UInt16
  size : UInt16
  valid : UInt8
  deriving DecidableEq, Repr

/-- The number of traffic classes. -/
def trafficClasses : Nat := 8

instance : Record TrafficClass where
  size := 8
  parse := Reading.parse do
    let offset ← Cursor.half
    let size ← Cursor.half
    let valid ← Cursor.byte
    return ⟨offset, size, valid⟩

end NicScope
