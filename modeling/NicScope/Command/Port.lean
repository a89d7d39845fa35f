/-
The command that dumps the packet filter tables of a port. A view of tables whose
size is not fixed asks for the sizes first, and refuses sizes that make no sense.
A function may be chosen for the address and VLAN views, for the addresses only
together with their kind.
-/

import NicScope.Command.Interface
import NicScope.Command.PortView
import NicScope.Feature
import NicScope.Transfer.Fetch

namespace NicScope

namespace Port

/-- The tables that can be dumped. -/
inductive View where
  | addresses | vlans | managers | promiscuity | vlanOffload
  deriving DecidableEq, Repr

def features : List (Feature View) :=
  [⟨"mac", 1, true, .addresses⟩, ⟨"vlan", 2, true, .vlans⟩, ⟨"mng", 3, true, .managers⟩,
    ⟨"promisc", 4, false, .promiscuity⟩, ⟨"vlan_offload", 5, false, .vlanOffload⟩]

/-- What the options of the command choose. -/
structure Context where
  target : Target
  feature : Option (Feature View)
  function : Option UInt16
  unicast : Option Bool
  deriving DecidableEq, Repr

/-! ### Options -/

def commandName : String := "nic_ppp"

/-- Chooses the view. -/
def chooseView (argument : Option String) : OptionAction Context Unit := do
  let feature ← Feature.select features argument "please input valid subfunction."
  modify fun context => { context with feature := some feature }

/-- Chooses a function. -/
def chooseFunction (argument : Option String) : OptionAction Context Unit := do
  let value ← requireUnsigned argument "parse -func/--function parameter failed."
  if value.toNat ≥ maxFunctions then
    throw (.invalidArgument "maximum func_id should be less than 256.")
  modify fun context => { context with function := some value.toUInt16 }

/-- Chooses the kind of addresses. -/
def chooseUnicast (argument : Option String) : OptionAction Context Unit := do
  let value ← requireUnsigned argument "parse -un/--unicast parameter failed."
  if value.toNat > 1 then
    throw (.invalidArgument "please input 0 or 1 for -un/--unicast parameter.")
  modify fun context => { context with unicast := some (value == 1) }

def options (files : FileTree) (systemRoot : String) : List (CommandOption Context) :=
  [.help,
    Interface.option files systemRoot fun target context => { context with target },
    ⟨"-du", "--dump", true, chooseView⟩,
    ⟨"-func", "--func_id", true, chooseFunction⟩,
    ⟨"-uc", "--unicast", true, chooseUnicast⟩]

def optionHelp : String :=
  Command.helpLine ++ Interface.helpLine "\t" ++
    Dump.lines
      ["      [-du/--dump mac -func/--func_id <func_id> -uc/--unicast <1/0>]",
        "              dump MAC table info.",
        "              dump unicast/multicast MAC address for a function.",
        "      [-du/--dump vlan -func/--function <func_no>]",
        "              dump VLAN table info.",
        "              dump VLAN of a function.",
        "      [-du/--dump mng]",
        "              dump manager table info.",
        "      [-du/--dump promisc]",
        "              dump promiscuous info.",
        "      [-du/--dump vlan_offload]",
        "              dump VLAN offload info.",
        ""]

/-! ### Checks -/

/-- Refuses choices that do not go with the view. -/
def checkChoices (context : Context) (feature : Feature View) : Except Error Unit :=
  match feature.kind with
  | .addresses =>
    if context.function.isSome = context.unicast.isSome then .ok ()
    else .error (.invalidArgument "please input func_id and unicast value at the same time.")
  | .vlans =>
    if context.unicast.isNone then .ok ()
    else .error (.invalidArgument (feature.name ++ " cmd no need '-uc/--unicast' parameter"))
  | .managers | .promiscuity | .vlanOffload =>
    if context.function.isNone && context.unicast.isNone then .ok ()
    else
      .error (.invalidArgument
        (feature.name ++ " cmd no need '-func/--func_id' and '-uc/--unicast' parameter"))

/-- The view to dump, if the choices are good. -/
def choice (context : Context) : Except Error (Feature View) := do
  context.target.requirePhysical
  match context.feature with
  | none => .error (.usage "-du/--dump parameter error!")
  | some feature =>
    checkChoices context feature
    return feature

/-- Refuses a function that the port does not have. -/
def checkFunction (context : Context) (resources : PortResources) : Except Error Unit :=
  match context.function with
  | none => .ok ()
  | some function =>
    if function < resources.functions then .ok ()
    else .error (.invalidArgument
      ("-func/--func_id parameter is invalid, func_id should be less than " ++
        Numeral.decimal resources.functions.toNat ++ "."))

/-! ### Questions -/

/-- The request for a block of a table. -/
def blockRequest (address : PciAddress) (block : UInt8) : PortRequest :=
  ⟨address, block, 0, #v[0, 0], 0⟩

/-- The request for a page of a table. -/
def pageRequest (address : PciAddress) (unicast : UInt8) (entry : UInt32) : PortRequest :=
  ⟨address, 0, unicast, #v[0, 0], entry⟩

def header (subcommand : UInt32) : Header :=
  .ofNic .ppp subcommand

/-- A table that comes as one record. -/
def fetchRecord {α : Type} [Record α] (address : PciAddress) (subcommand : UInt32) :
    Exchange α :=
  Fetch.record EntryHead commandName (header subcommand) (blockRequest address)

/-- A table that comes entry by entry. -/
def fetchTable {α : Type} [Record α] (address : PciAddress) (subcommand : UInt32)
    (unicast : UInt8) (entries : UInt32) : Exchange (List α) :=
  Fetch.table EntryHead commandName (header subcommand) (.all entries (Record.size α))
    (pageRequest address unicast) Record.parseMany

/-- The sizes of the tables, which must make sense. -/
def fetchResources (address : PciAddress) : Exchange PortResources := do
  let resources : PortResources ←
    Fetch.withCause (.failed "fail to obtain ppp hardware resources.") (fetchRecord address 0)
  if resources.isValid then return resources
  throw (.invalidArgument "ppp hardware resources obtained is invalid.")

/-- The tables of a view. -/
def fetchTables (context : Context) (feature : Feature View) (resources : PortResources) :
    Exchange PortTables := do
  let address := context.target.address
  match feature.kind with
  | .addresses =>
    let entries := resources.addressEntries
    let unicast ←
      if context.unicast = some false then pure []
      else fetchTable address feature.subcommand 1 entries
    let multicast ←
      if context.unicast = some true then pure []
      else fetchTable address feature.subcommand 0 entries
    return .addresses unicast multicast
  | .vlans =>
    let functions ←
      fetchTable address feature.subcommand 0 resources.functionVlanEntries.toUInt32
    let ports ← fetchTable address feature.subcommand 1 resources.portVlanEntries.toUInt32
    return .vlans functions ports
  | .managers => .managers <$> fetchTable address feature.subcommand 0 resources.managerEntries
  | .promiscuity => .promiscuity <$> fetchRecord address feature.subcommand
  | .vlanOffload => .vlanOffload <$> fetchRecord address feature.subcommand

/-- Asks for what the view needs, and shows it. -/
def execute (context : Context) : Exchange Dump := do
  let feature ← Fetch.fromExcept (choice context)
  let resources ←
    if feature.needsSizes then fetchResources context.target.address
    else pure ⟨0, 0, 0, 0, 0, 0, 0, 0⟩
  Fetch.fromExcept (checkFunction context resources)
  let tables ← Fetch.withCause (.query feature.name) (fetchTables context feature resources)
  let lines := tables.view resources context.target.address.function context.function
    (context.unicast == some true)
  return Dump.framed ("############## NIC PPP: " ++ feature.name ++ " info ############")
    [.text (Dump.lines lines)]

end Port

/-- Dumps the packet filter tables of a port. -/
def portCommand : Command where
  name := Port.commandName
  summary := "dump ppp info of nic!"
  optionHelp := Port.optionHelp
  Context := Port.Context
  initial := ⟨.unset, none, none, none⟩
  options := Port.options
  execute := Port.execute

end NicScope
