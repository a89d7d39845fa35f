/-
The packet filter tables of a port: how large they are, which addresses and
VLANs they hold, the manager table, and the promiscuity and VLAN offload of each
function. A function is named by its number on the port, 0 for the physical
function itself, or by an absolute id that the bitmaps are indexed by.
-/

import NicScope.Tables.Record

namespace NicScope

open Numeral

/-- The most functions of a port. -/
def maxFunctions : Nat := 256

/-- How many ports the bitmap of a port VLAN entry has. -/
def maxPorts : Nat := 8

/-! ### Sizes -/

/-- The table sizes and the functions of one port. -/
structure PortResources where
  keyMemory : UInt32
  overflowMemory : UInt32
  managerEntries : UInt32
  portVlanEntries : UInt16
  functionVlanEntries : UInt16
  functions : UInt16
  firstFunction : UInt16
  port : UInt32
  deriving DecidableEq, Repr

namespace PortResources

/-- Whether every size can be used. -/
def isValid (resources : PortResources) : Bool :=
  resources.keyMemory != 0 &&
    decide (resources.keyMemory.toNat + resources.overflowMemory.toNat < UInt32.size) &&
    resources.portVlanEntries != 0 &&
    resources.functionVlanEntries != 0 &&
    resources.managerEntries != 0 &&
    decide (resources.port.toNat < maxPorts) &&
    resources.functions != 0 &&
    decide (resources.functions.toNat ≤ maxFunctions) &&
    decide (resources.firstFunction.toNat < maxFunctions)

/-- The entries of the address table, in key memory and overflow memory; the
largest number where their sum has no 32 bits. -/
def addressEntries (resources : PortResources) : UInt32 :=
  Bits.saturatingAdd resources.keyMemory resources.overflowMemory

/-- The absolute id of a function of the port. The physical function has its own
number on the device; the virtual ones follow the first id of the port. -/
def absoluteId (resources : PortResources) (physical : UInt8) (function : UInt16) : UInt16 :=
  if function = 0 then physical.toUInt16 else resources.firstFunction + function - 1

end PortResources

instance : Record PortResources where
  size := 68
  parse := Reading.parse do
    let keyMemory ← Cursor.word
    let overflowMemory ← Cursor.word
    let managerEntries ← Cursor.word
    let portVlanEntries ← Cursor.half
    let functionVlanEntries ← Cursor.half
    let functions ← Cursor.half
    let firstFunction ← Cursor.half
    let port ← Cursor.word
    Cursor.skip 40
    return ⟨keyMemory, overflowMemory, managerEntries, portVlanEntries, functionVlanEntries,
      functions, firstFunction, port⟩

/-- The name of a function on its port: the physical one, or the number of a
virtual one, counted from 0. -/
def functionName (function : UInt16) : String :=
  if function = 0 then "pf" else "vf" ++ decimal (function.toNat - 1)

/-! ### Addresses -/

/-- An entry of the unicast address table. -/
structure UnicastEntry where
  index : UInt32
  address : MacAddress
  valid : UInt16
  ingressPort : UInt16
  vlan : UInt16
  enabled : UInt16
  queueMode : UInt16
  unicast : UInt16
  egressType : UInt16
  egress : UInt16
  deriving DecidableEq, Repr

namespace UnicastEntry

/-- The physical function that the egress belongs to. -/
def physical (entry : UnicastEntry) : UInt8 :=
  (Bits.field entry.egress.toUInt64 0x7 0).toUInt8

/-- The function of the egress, relative to its physical function. -/
def function (entry : UnicastEntry) : UInt16 :=
  (Bits.field entry.egress.toUInt64 0x7f8 3).toUInt16

end UnicastEntry

instance : Record UnicastEntry where
  size := 28
  parse := Reading.parse do
    let index ← Cursor.word
    let address ← MacAddress.read
    let valid ← Cursor.half
    let ingressPort ← Cursor.half
    let vlan ← Cursor.half
    let enabled ← Cursor.half
    let queueMode ← Cursor.half
    let unicast ← Cursor.half
    let egressType ← Cursor.half
    let egress ← Cursor.half
    Cursor.skip 2
    return ⟨index, address, valid, ingressPort, vlan, enabled, queueMode, unicast, egressType,
      egress⟩

/-- An entry of the multicast address table. -/
structure MulticastEntry where
  index : UInt32
  address : MacAddress
  functions : FunctionBitmap
  deriving DecidableEq, Repr

instance : Record MulticastEntry where
  size := 44
  parse := Reading.parse do
    let index ← Cursor.word
    let address ← MacAddress.read
    Cursor.skip 2
    let functions ← FunctionBitmap.read
    return ⟨index, address, functions⟩

/-! ### VLANs -/

/-- An entry of the VLAN filter of the ports. -/
structure PortVlanEntry where
  vlan : UInt16
  ports : UInt8
  deriving DecidableEq, Repr

/-- Whether the entry holds for `port`. -/
def PortVlanEntry.hasPort (entry : PortVlanEntry) (port : UInt32) : Bool :=
  decide (port.toNat < maxPorts) && entry.ports.toNat.testBit port.toNat

instance : Record PortVlanEntry where
  size := 4
  parse := Reading.parse do
    let vlan ← Cursor.half
    let ports ← Cursor.byte
    Cursor.skip 1
    return ⟨vlan, ports⟩

/-- An entry of the VLAN filter of the functions. -/
structure FunctionVlanEntry where
  vlan : UInt16
  functions : FunctionBitmap
  deriving DecidableEq, Repr

instance : Record FunctionVlanEntry where
  size := 36
  parse := Reading.parse do
    let vlan ← Cursor.half
    Cursor.skip 2
    let functions ← FunctionBitmap.read
    return ⟨vlan, functions⟩

/-! ### The manager table -/

structure ManagerEntry where
  number : UInt32
  address : MacAddress
  addressMask : UInt8
  etherMask : UInt8
  etherType : UInt16
  vlan : UInt16
  vlanMask : UInt8
  ingressPorts : UInt8
  ingressDirection : UInt8
  drop : UInt8
  egressType : UInt8
  physical : UInt8
  function : UInt16
  queue : UInt16
  deriving DecidableEq, Repr

instance : Record ManagerEntry where
  size := 28
  parse := Reading.parse do
    let number ← Cursor.word
    let address ← MacAddress.read
    let addressMask ← Cursor.byte
    let etherMask ← Cursor.byte
    let etherType ← Cursor.half
    let vlan ← Cursor.half
    let vlanMask ← Cursor.byte
    let ingressPorts ← Cursor.byte
    let ingressDirection ← Cursor.byte
    let drop ← Cursor.byte
    let egressType ← Cursor.byte
    let physical ← Cursor.byte
    let function ← Cursor.half
    let queue ← Cursor.half
    Cursor.skip 2
    return ⟨number, address, addressMask, etherMask, etherType, vlan, vlanMask, ingressPorts,
      ingressDirection, drop, egressType, physical, function, queue⟩

/-! ### Promiscuity -/

/-- Which packets one function takes whatever their address. -/
structure Promiscuity where
  function : UInt8
  unicast : UInt8
  multicast : UInt8
  broadcast : UInt8
  deriving DecidableEq, Repr

instance : Record Promiscuity where
  size := 4
  parse := Reading.parse do
    let switches ← Cursor.array 4
    return ⟨switches[0], switches[1], switches[2], switches[3]⟩

/-- The number of functions in front of a table with one record for each. -/
def readFunctionCount : Reading Nat := do
  let count ← Cursor.half
  if count.toNat > maxFunctions then throw (.illegalFunctionCount count)
  return count.toNat

/-- The promiscuity of every function of a port. -/
structure PromiscuityTable where
  functions : List Promiscuity
  deriving DecidableEq, Repr

instance : Record PromiscuityTable where
  size := 4 + 4 * maxFunctions
  parse := Reading.parse do
    let count ← readFunctionCount
    Cursor.skip 2
    let functions ← Reading.ofExcept (Record.parseMany count (← Cursor.remaining))
    return ⟨functions⟩

/-! ### VLAN offload -/

/-- On which ways VLANs are filtered. -/
structure VlanFilter where
  ingress : Bool
  egress : Bool
  deriving DecidableEq, Repr

namespace VlanFilter

/-- Bit 0 is ingress, bit 1 egress; other bits have no meaning. -/
def ofBits (bits : UInt16) : VlanFilter :=
  ⟨bits.toNat.testBit 0, bits.toNat.testBit 1⟩

def bits (filter : VlanFilter) : UInt16 :=
  (if filter.ingress then 1 else 0) + (if filter.egress then 2 else 0)

end VlanFilter

/-- The VLAN offload switches of one function. -/
structure VlanOffload where
  filter : VlanFilter
  portVlan : UInt16
  bypass : UInt8
  acceptTag1 : UInt8
  acceptTag2 : UInt8
  acceptUntag1 : UInt8
  acceptUntag2 : UInt8
  insertTag1 : UInt8
  insertTag2 : UInt8
  shiftTag : UInt8
  stripTag1 : UInt8
  stripTag2 : UInt8
  dropTag1 : UInt8
  dropTag2 : UInt8
  priorityTag1 : UInt8
  priorityTag2 : UInt8
  deriving DecidableEq, Repr

namespace VlanOffload

/-- The names of the tag switches. -/
def switchNames : List String :=
  ["accept_tag1", "accept_tag2", "accept_untag1", "accept_untag2", "insert_tag1", "insert_tag2",
    "shift_tag", "strip_tag1", "strip_tag2", "drop_tag1", "drop_tag2", "pri_only_tag1",
    "pri_only_tag2"]

/-- The tag switches with their names. -/
def switches (offload : VlanOffload) : List (String × UInt8) :=
  switchNames.zip
    [offload.acceptTag1, offload.acceptTag2, offload.acceptUntag1, offload.acceptUntag2,
      offload.insertTag1, offload.insertTag2, offload.shiftTag, offload.stripTag1,
      offload.stripTag2, offload.dropTag1, offload.dropTag2, offload.priorityTag1,
      offload.priorityTag2]

end VlanOffload

instance : Record VlanOffload where
  size := 20
  parse := Reading.parse do
    let filter := VlanFilter.ofBits (← Cursor.half)
    let portVlan ← Cursor.half
    let switches ← Cursor.array 14
    Cursor.skip 2
    return ⟨filter, portVlan, switches[0], switches[1], switches[2], switches[3], switches[4],
      switches[5], switches[6], switches[7], switches[8], switches[9], switches[10],
      switches[11], switches[12], switches[13]⟩

/-- The VLAN offload of a port and of each of its functions. -/
structure VlanOffloadTable where
  portFilter : VlanFilter
  functions : List VlanOffload
  deriving DecidableEq, Repr

instance : Record VlanOffloadTable where
  size := 4 + 20 * maxFunctions
  parse := Reading.parse do
    let portFilter := VlanFilter.ofBits (← Cursor.byte).toUInt16
    Cursor.skip 1
    let count ← readFunctionCount
    let functions ← Reading.ofExcept (Record.parseMany count (← Cursor.remaining))
    return ⟨portFilter, functions⟩

end NicScope
