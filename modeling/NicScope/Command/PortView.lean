/-
The packet filter tables of a port as they are shown: in full, or what concerns
one function. The rows of the address tables are divided by where they are
stored, in key memory or, from its size on, in overflow memory.
-/

import NicScope.Command.Dump
import NicScope.Tables.Port
import NicScope.Text.Column

namespace NicScope

open Numeral

/-- What was read for a view of the tables. -/
inductive PortTables where
  | addresses (unicast : List UnicastEntry) (multicast : List MulticastEntry)
  | vlans (functions : List FunctionVlanEntry) (ports : List PortVlanEntry)
  | managers (entries : List ManagerEntry)
  | promiscuity (table : PromiscuityTable)
  | vlanOffload (table : VlanOffloadTable)
  deriving DecidableEq, Repr

namespace PortTables

/-! ### Addresses -/

def unicastColumns : String :=
  "index | valid | mac_addr          | vlan_id | VMDq1 | mac_en | " ++
    "in_port(mac_id) | E_vPort_type | E_vPort"

def unicastRow (entry : UnicastEntry) : String :=
  paddedDecimal 4 entry.index.toNat ++ "  | " ++ decimal entry.valid.toNat ++ "     | " ++
    entry.address.render ++ " | " ++ paddedDecimal 4 entry.vlan.toNat ++ "    | " ++
    decimal entry.queueMode.toNat ++ "     | " ++ decimal entry.enabled.toNat ++ "      | " ++
    decimal entry.ingressPort.toNat ++ "               | " ++ decimal entry.egressType.toNat ++
    "            | " ++ paddedHexadecimal 6 entry.egress.toNat

def multicastRow (entry : MulticastEntry) : String :=
  paddedDecimal 4 entry.index.toNat ++ "  | " ++ entry.address.render ++ " | " ++
    entry.functions.render

/-- Rows of both tables, with the numbers of entries that are stated for them. -/
def addressRows (unicast : List UnicastEntry) (unicastCount : Nat)
    (multicast : List MulticastEntry) (multicastCount : Nat) : List String :=
  ["Unicast MAC table[entry number=" ++ decimal unicastCount ++ "]:", unicastColumns] ++
    unicast.map unicastRow ++
    ["Multicast MAC table[entry number=" ++ decimal multicastCount ++ "]:",
      "index | mac_addr          | func bitMap[255  <--  0]"] ++
    multicast.map multicastRow

/-- Both tables in full. The numbers stated over the key memory are those of all
entries. -/
def allAddresses (resources : PortResources) (unicast : List UnicastEntry)
    (multicast : List MulticastEntry) : List String :=
  let keyMemory := resources.keyMemory
  let unicastKeys := unicast.filter fun entry => entry.index < keyMemory
  let multicastKeys := multicast.filter fun entry => entry.index < keyMemory
  let unicastRest := unicast.filter fun entry => entry.index ≥ keyMemory
  let multicastRest := multicast.filter fun entry => entry.index ≥ keyMemory
  let inKeyMemory :=
    ("Key mem[total_entry_size=" ++ decimal keyMemory.toNat ++ "]:") ::
      addressRows unicastKeys unicast.length multicastKeys multicast.length
  if resources.overflowMemory = 0 then inKeyMemory
  else
    inKeyMemory ++
      ("Overflow cam[total_entry_size=" ++ decimal resources.overflowMemory.toNat ++ "]:") ::
      addressRows unicastRest unicastRest.length multicastRest multicastRest.length

/-- The unicast addresses of a function, up to the first entry that is not in key
memory. -/
def unicastOf (resources : PortResources) (physical : UInt8) (function : UInt16)
    (entries : List UnicastEntry) : List MacAddress :=
  ((entries.takeWhile fun entry => entry.index < resources.keyMemory).filter fun entry =>
    entry.physical == physical && entry.function == function).map (·.address)

/-- The multicast addresses of a function, up to the first entry that is not in
key memory. -/
def multicastOf (resources : PortResources) (physical : UInt8) (function : UInt16)
    (entries : List MulticastEntry) : List MacAddress :=
  ((entries.takeWhile fun entry => entry.index < resources.keyMemory).filter fun entry =>
    entry.functions.isSet (resources.absoluteId physical function)).map (·.address)

/-- The addresses of one kind that a function has. -/
def functionAddresses (resources : PortResources) (physical : UInt8) (function : UInt16)
    (isUnicast : Bool) (unicast : List UnicastEntry) (multicast : List MulticastEntry) :
    List String :=
  let name := functionName function
  let kind := if isUnicast then "unicast" else "multicast"
  let addresses :=
    if isUnicast then unicastOf resources physical function unicast
    else multicastOf resources physical function multicast
  [name ++ "_abs_func_id=" ++ decimal (resources.absoluteId physical function).toNat,
    name ++ " " ++ kind ++ " MAC addrs:"] ++
    addresses.map fun address => "\t" ++ address.render

/-! ### VLANs -/

/-- VLAN ids in a block whose rows have six of them. -/
def vlanBlock (ids : List UInt16) : String :=
  String.join (ids.zipIdx.map fun entry =>
    Column.right 4 (decimal entry.1.toNat) ++ " " ++
      if (entry.2 + 1) % 6 = 0 then "\n\t" else "")

/-- Both VLAN filters in full. -/
def allVlans (resources : PortResources) (functions : List FunctionVlanEntry)
    (ports : List PortVlanEntry) : List String :=
  ["port_vlan_table_size=" ++ decimal resources.portVlanEntries.toNat,
    "vf_vlan_table_size=" ++ decimal resources.functionVlanEntries.toNat,
    "vlan_id | vf filter bitmap[func_255 <--- func_0]"] ++
    functions.map (fun entry =>
      " " ++ paddedDecimal 4 entry.vlan.toNat ++ "  | " ++ entry.functions.render) ++
    ["vlan_id | port filter bitmap(based on mac_id)"] ++
    ports.map fun entry =>
      " " ++ paddedDecimal 4 entry.vlan.toNat ++ "   | " ++ paddedHexadecimal 2 entry.ports.toNat

/-- The VLANs of the port of the physical function. -/
def portVlans (resources : PortResources) (ports : List PortVlanEntry) : List String :=
  let ids := (ports.filter fun entry => entry.hasPort resources.port).map (·.vlan)
  ["mac_id=" ++ decimal resources.port.toNat,
    "total_func_num=" ++ decimal resources.functions.toNat,
    "abs_func_id_base=" ++ decimal resources.firstFunction.toNat,
    "port VLAN id:", "\t" ++ vlanBlock ids]

/-- The VLANs of a virtual function. -/
def functionVlans (resources : PortResources) (physical : UInt8) (function : UInt16)
    (functions : List FunctionVlanEntry) : List String :=
  let id := resources.absoluteId physical function
  let name := functionName function
  let ids := (functions.filter fun entry => entry.functions.isSet id).map (·.vlan)
  [name ++ "_abs_func_id: " ++ decimal id.toNat, name ++ " VLAN id:", "\t" ++ vlanBlock ids]

/-! ### Managers -/

def managerRow (entry : ManagerEntry) : String :=
  " " ++ paddedDecimal 2 entry.number.toNat ++ "   | " ++ entry.address.render ++ " | " ++
    decimal entry.addressMask.toNat ++ "    | " ++ paddedHexadecimal 4 entry.etherType.toNat ++
    "  | " ++ decimal entry.etherMask.toNat ++ "    | " ++ paddedDecimal 4 entry.vlan.toNat ++
    " | " ++ decimal entry.vlanMask.toNat ++ "    | " ++
    paddedHexadecimal 2 entry.ingressPorts.toNat ++ "    | " ++
    paddedHexadecimal 2 entry.ingressDirection.toNat ++ "    | " ++
    decimal entry.egressType.toNat ++ "      | " ++ paddedDecimal 2 entry.physical.toNat ++
    "    | " ++ paddedDecimal 3 entry.function.toNat ++ "   | " ++
    paddedDecimal 4 entry.queue.toNat ++ " | " ++ decimal entry.drop.toNat

def managerTable (resources : PortResources) (entries : List ManagerEntry) : List String :=
  ["manager_table_size=" ++ decimal resources.managerEntries.toNat,
    "entry | mac               | mask | ether | mask | vlan | mask | i_map | i_dir | " ++
      "e_type | pf_id | vf_id | q_id | drop"] ++
    entries.map managerRow

/-! ### Functions -/

def promiscuityTable (table : PromiscuityTable) : List String :=
  "func_id\t uc_en\t mc_en\t bc_en" :: table.functions.map fun entry =>
    "\t ".intercalate
      [functionName entry.function.toUInt16, decimal entry.unicast.toNat,
        decimal entry.multicast.toNat, decimal entry.broadcast.toNat]

def onOff (enabled : Bool) : String :=
  if enabled then "on" else "off"

/-- Whether the filter of the port is passed by; other values have no meaning. -/
def bypassText (bypass : UInt8) : String :=
  if bypass = 0 then "off" else if bypass = 1 then "on" else "NA"

def vlanOffloadTable (table : VlanOffloadTable) : List String :=
  let functions := table.functions.zipIdx.map fun entry =>
    (functionName (UInt16.ofNat entry.2), entry.1)
  ["port VLAN filter configuration:",
    "ingress_port_vlan_filter: " ++ onOff table.portFilter.ingress,
    "egress_port_vlan_filter: " ++ onOff table.portFilter.egress,
    "func VLAN filter configuration:",
    "func_id\t ingress_vlan_filter\t egress_vlan_filter\t port_vlan_filter_bypass"] ++
    functions.map (fun (name, offload) =>
      name ++ "\t " ++ onOff offload.filter.ingress ++ "\t\t\t " ++ onOff offload.filter.egress ++
        "\t\t\t " ++ bypassText offload.bypass) ++
    ["func VLAN offload configuration:",
      "func_id\tpvid\t" ++ "\t".intercalate VlanOffload.switchNames] ++
    functions.map fun (name, offload) =>
      name ++ "\t" ++ decimal offload.portVlan.toNat ++ "\t" ++
        "\t\t".intercalate (offload.switches.map fun switch => onOff (switch.2 != 0))

/-! ### Views -/

/-- The lines of a view. Of the tables in which functions have entries, only
those of `function` are shown if one is chosen, of the addresses only one kind. -/
def view (resources : PortResources) (physical : UInt8) (function : Option UInt16)
    (isUnicast : Bool) : PortTables → List String
  | addresses unicast multicast =>
    match function with
    | some function => functionAddresses resources physical function isUnicast unicast multicast
    | none => allAddresses resources unicast multicast
  | vlans functions ports =>
    match function with
    | some function =>
      if function = 0 then portVlans resources ports
      else functionVlans resources physical function functions
    | none => allVlans resources functions ports
  | managers entries => managerTable resources entries
  | promiscuity table => promiscuityTable table
  | vlanOffload table => vlanOffloadTable table

end PortTables

end NicScope
