/-
This file says what the commands read from the device. Each of them carries out a plan of its own:
it orders one thing after another, each with the way to decode it, checks what it has got before
it goes on, and puts every error of reading into its own words. All orders are about one function
of a device, that of the target in the context of the command; whether an option is missing or
wrong is decided before anything is ordered.
-/

import NicScope.Proofs.Transfer.Plans
import NicScope.Tool

namespace NicScope

/-! ### Addresses -/

/-- A query that is about the function at an address, which the first two words behind its
header are. -/
def Query.Names (query : Query) (address : PciAddress) : Prop :=
  query.words.take 2 = [address.domain, address.packed]

/-- An order all of whose queries are about the function at an address. -/
def Order.Names {β : Type} (order : Order β) (address : PciAddress) : Prop :=
  ∀ query, order.Sends query → query.Names address

theorem Bytes.toWords_word (value : UInt32) (rest : Bytes) :
    Bytes.toWords ((Field.word value).bytes ++ rest) = value :: Bytes.toWords rest := by
  have whole : UInt32.ofNat (Bytes.toNat (Bytes.ofNat 4 value.toNat)) = value := by
    have small : value.toNat < 256 ^ 4 := value.toNat_lt
    rw [Bytes.toNat_ofNat, Nat.mod_eq_of_lt small, UInt32.ofNat_toNat]
  exact congrArg (· :: Bytes.toWords rest) whole

section Requests

variable {ρ : Type} [Layout ρ]

/-- A request whose fields begin with those of an address. -/
def Addresses (request : ρ) (address : PciAddress) : Prop :=
  ∃ rest, Layout.fields request = .word address.domain :: .word address.packed :: rest

theorem Addresses.names {request : ρ} {address : PciAddress} (addresses : Addresses request address)
    (header : Header) : (queryOf header request).Names address := by
  obtain ⟨rest, fields⟩ := addresses
  rw [Query.Names, queryOf, Layout.bytes, fields, Field.layOut_cons, Field.layOut_cons,
    Bytes.toWords_word, Bytes.toWords_word]
  rfl

variable {η β : Type} [BlockHead η] {name : String} {header : Header} {address : PciAddress}

theorem names_blob {capacity : Nat} {request : UInt8 → ρ}
    {small : ∀ index, Field.totalSize (Layout.fields (request index)) ≤ 128}
    {decode : Bytes → Except DecodeError β}
    (addresses : ∀ index, Addresses (request index) address) :
    (Order.blob η ρ name header capacity request small decode).Names address := by
  rintro _ ⟨index, rfl⟩
  exact (addresses index).names header

theorem names_table {paging : Paging} {request : UInt32 → ρ}
    {small : ∀ index, Field.totalSize (Layout.fields (request index)) ≤ 128}
    {decode : Nat → Bytes → Except DecodeError (List β)}
    (addresses : ∀ index, Addresses (request index) address) :
    (Order.table η ρ name header paging request small decode).Names address := by
  rintro _ ⟨index, rfl⟩
  exact (addresses index).names header

end Requests

/-- An exchange carries out a plan, all of whose orders are about the function at an address. -/
abbrev Reads {α : Type} (address : PciAddress) (plan : Plan α) (exchange : Exchange α) : Prop :=
  Planned (fun order _ => order.Names address) plan exchange

/-- All errors of reading are told besides. -/
abbrev ReadsTold {α : Type} (address : PciAddress) (plan : Plan α) (exchange : Exchange α) :
    Prop :=
  Planned (fun order wording => order.Names address ∧ wording.Told) plan exchange

namespace Wording

/-- The words of a view. -/
def query (feature : String) : Wording := ⟨.query feature, fun _ => rfl, fun _ => rfl⟩

/-- A text in front of an error. -/
def failed (text : Error → String) : Wording :=
  ⟨fun cause => .failed (text cause) cause, fun _ => rfl, fun _ => rfl⟩

theorem told_within {outer : Wording} (told : outer.Told) (inner : Wording) :
    (inner.within outer).Told :=
  fun cause => told (inner.describe cause)

theorem told_query (feature : String) : (query feature).Told := by
  intro cause text same
  cases same

theorem told_failed (text : Error → String) : (failed text).Told := by
  intro cause text same
  cases same

end Wording

/-- Errors are told once they are put into words. -/
theorem Planned.told {α : Type} {address : PciAddress} {plan : Plan α} {exchange : Exchange α}
    (reads : Reads address plan exchange) {outer : Wording} (told : outer.Told) :
    ReadsTold address (plan.reworded outer) (Fetch.withCause outer.describe exchange) :=
  reads.withCause outer fun _ inner here => ⟨here, Wording.told_within told inner⟩

/-! ### Packet filter tables -/

namespace Port

section Orders

variable (α : Type) [Record α] (address : PciAddress) (subcommand : UInt32)

/-- A table that comes as one record. -/
def recordOrder : Order α :=
  .blob EntryHead PortRequest commandName (header subcommand) (Record.size α)
    (blockRequest address) (fun _ => Nat.le_of_ble_eq_true rfl) Record.parse

/-- A table that comes entry by entry. -/
def tableOrder (unicast : UInt8) (entries : UInt32) : Order (List α) :=
  .table EntryHead PortRequest commandName (header subcommand) (.all entries (Record.size α))
    (pageRequest address unicast) (fun _ => Nat.le_of_ble_eq_true rfl) Record.parseMany

variable {α}

theorem reads_fetchRecord :
    Reads address (.order (recordOrder α address subcommand)) (fetchRecord address subcommand) := by
  have carries : fetchRecord address subcommand = (recordOrder α address subcommand).exchange := rfl
  rw [carries]
  exact .order _ (names_blob fun _ => ⟨_, rfl⟩)

theorem reads_fetchTable (unicast : UInt8) (entries : UInt32) :
    Reads address (.order (tableOrder α address subcommand unicast entries))
      (fetchTable address subcommand unicast entries) := by
  have carries : fetchTable address subcommand unicast entries =
      (tableOrder α address subcommand unicast entries).exchange := rfl
  rw [carries]
  exact .order _ (names_table fun _ => ⟨_, rfl⟩)

end Orders

/-- The sizes of the tables are ordered first, and must make sense. -/
def resourcesPlan (address : PciAddress) : Plan PortResources := do
  let resources ← (Plan.order (recordOrder PortResources address 0)).reworded
    (.failed fun _ => "fail to obtain ppp hardware resources.")
  if resources.isValid then return resources
  .done (.error (.invalidArgument "ppp hardware resources obtained is invalid."))

/-- The tables of a view, each with the records that it consists of. -/
def tablesPlan (context : Context) (feature : Feature View) (resources : PortResources) :
    Plan PortTables := do
  let address := context.target.address
  match feature.kind with
  | .addresses =>
    let entries := resources.addressEntries
    let unicast ←
      if context.unicast = some false then pure []
      else .order (tableOrder UnicastEntry address feature.subcommand 1 entries)
    let multicast ←
      if context.unicast = some true then pure []
      else .order (tableOrder MulticastEntry address feature.subcommand 0 entries)
    return .addresses unicast multicast
  | .vlans =>
    let functions ← .order (tableOrder FunctionVlanEntry address feature.subcommand 0
      resources.functionVlanEntries.toUInt32)
    let ports ← .order (tableOrder PortVlanEntry address feature.subcommand 1
      resources.portVlanEntries.toUInt32)
    return .vlans functions ports
  | .managers =>
    .managers <$>
      .order (tableOrder ManagerEntry address feature.subcommand 0 resources.managerEntries)
  | .promiscuity =>
    .promiscuity <$> .order (recordOrder PromiscuityTable address feature.subcommand)
  | .vlanOffload =>
    .vlanOffload <$> .order (recordOrder VlanOffloadTable address feature.subcommand)

/-- What the command does. -/
def plan (context : Context) : Plan Dump := do
  let feature ← .done (choice context)
  let resources ←
    if feature.needsSizes then resourcesPlan context.target.address
    else pure ⟨0, 0, 0, 0, 0, 0, 0, 0⟩
  .done (checkFunction context resources)
  let tables ← (tablesPlan context feature resources).reworded (.query feature.name)
  let lines := tables.view resources context.target.address.function context.function
    (context.unicast == some true)
  return Dump.framed ("############## NIC PPP: " ++ feature.name ++ " info ############")
    [.text (Dump.lines lines)]

theorem reads_fetchResources (address : PciAddress) :
    ReadsTold address (resourcesPlan address) (fetchResources address) :=
  .bind (Planned.told (reads_fetchRecord address 0)
      (Wording.told_failed fun _ => "fail to obtain ppp hardware resources."))
    fun _ => .ite (.pure _) (.done _)

theorem reads_fetchTables (context : Context) (feature : Feature View)
    (resources : PortResources) :
    Reads context.target.address (tablesPlan context feature resources)
      (fetchTables context feature resources) := by
  rw [fetchTables, tablesPlan]
  cases feature.kind with
  | addresses =>
    have multicast (unicast : List UnicastEntry) : Reads context.target.address
        (do
          let multicast ←
            if context.unicast = some true then pure []
            else .order (tableOrder MulticastEntry context.target.address feature.subcommand 0
              resources.addressEntries)
          return PortTables.addresses unicast multicast)
        (do
          let multicast ←
            if context.unicast = some true then pure []
            else fetchTable context.target.address feature.subcommand 0 resources.addressEntries
          return PortTables.addresses unicast multicast) :=
      .ite (.bind (.pure _) fun _ => .pure _) (.bind (reads_fetchTable _ _ _ _) fun _ => .pure _)
    exact .ite (.bind (.pure _) multicast) (.bind (reads_fetchTable _ _ _ _) multicast)
  | vlans =>
    exact .bind (reads_fetchTable _ _ _ _) fun _ =>
      .bind (reads_fetchTable _ _ _ _) fun _ => .pure _
  | managers => exact .map _ (reads_fetchTable _ _ _ _)
  | promiscuity => exact .map _ (reads_fetchRecord _ _)
  | vlanOffload => exact .map _ (reads_fetchRecord _ _)

theorem reads_execute (context : Context) :
    ReadsTold context.target.address (plan context) (execute context) := by
  have rest (feature : Feature View) (resources : PortResources) :=
    Planned.bind (.done (checkFunction context resources)) fun _ =>
      Planned.bind (Planned.told (reads_fetchTables context feature resources)
        (Wording.told_query feature.name)) fun tables =>
          Planned.pure (Dump.framed
            ("############## NIC PPP: " ++ feature.name ++ " info ############")
            [.text (Dump.lines (tables.view resources context.target.address.function
              context.function (context.unicast == some true)))])
  exact .bind (.done _) fun feature =>
    .ite (.bind (reads_fetchResources _) (rest feature)) (.bind (.pure _) (rest feature))

end Port

/-! ### Flow director -/

namespace Director

section Orders

variable (context : Context) (feature : Feature View) (resources : DirectorResources)

/-- What the hardware can do. -/
def resourcesOrder : Order DirectorResources :=
  .blob DirectorHead DirectorRequest commandName (header 0) (Record.size DirectorResources)
    (blockRequest context.target.address) (fun _ => Nat.le_of_ble_eq_true rfl) Record.parse

/-- The rules of the chosen stage. -/
def rulesOrder : Order (List Rule) :=
  .table DirectorHead DirectorRequest commandName (header feature.subcommand)
    (paging context (resources.entries.get (chosenStage context)) resources.ruleSize)
    (pageRequest context) (fun _ => Nat.le_of_ble_eq_true rfl)
    (Rule.parseMany resources.keyBytes.toNat)

/-- The counters of the chosen stage. -/
def countersOrder : Order (List HitCounter) :=
  .table DirectorHead DirectorRequest commandName (header feature.subcommand)
    (paging context (resources.counters.get (chosenStage context)).toUInt32
      (Record.size HitCounter))
    (pageRequest context) (fun _ => Nat.le_of_ble_eq_true rfl) Record.parseMany

theorem reads_fetchResources :
    Reads context.target.address (.order (resourcesOrder context))
      (fetchResources context.target.address) := by
  have carries : fetchResources context.target.address = (resourcesOrder context).exchange := rfl
  rw [carries]
  exact .order _ (names_blob fun _ => ⟨_, rfl⟩)

theorem reads_fetchRules :
    Reads context.target.address (.order (rulesOrder context feature resources))
      (fetchRules context feature resources) := by
  have carries : fetchRules context feature resources =
      (rulesOrder context feature resources).exchange := rfl
  rw [carries]
  exact .order _ (names_table fun _ => ⟨_, rfl⟩)

theorem reads_fetchCounters :
    Reads context.target.address (.order (countersOrder context feature resources))
      (fetchCounters context feature resources) := by
  have carries : fetchCounters context feature resources =
      (countersOrder context feature resources).exchange := rfl
  rw [carries]
  exact .order _ (names_table fun _ => ⟨_, rfl⟩)

end Orders

/-- Nothing is ordered to check the hardware. -/
def hardwarePlan (view : View) (resources : DirectorResources) : Plan Unit := do
  match view with
  | .hardware => return
  | .counters => .done (checkCounters resources)
  | .rules =>
    .done (checkEntries resources)
    if resources.mode.keyBits?.isNone then
      .note (.warning
        ("Unknown fd mode(" ++ Numeral.decimal resources.mode.code.toNat ++
          "), unsupport for displaying meta data info.")) (.done (.ok ()))
    .done (checkKeys resources)

/-- What the hardware can do is ordered before its tables, and must be good for the view. -/
def checkedPlan (context : Context) (view : View) : Plan DirectorResources := do
  let resources ← (Plan.order (resourcesOrder context)).reworded
    (.failed fun _ => "fail to obtain fd hardware configuration.")
  hardwarePlan view resources
  .done (checkIndex context view resources)
  return resources

/-- What the view shows. -/
def tablesPlan (context : Context) (feature : Feature View) : Plan DirectorTables := do
  match feature.kind with
  | .hardware =>
    Plan.reworded (.query feature.name) do
      return .hardware (← .order (resourcesOrder context))
  | .rules =>
    let resources ← checkedPlan context .rules
    Plan.reworded (.query feature.name) do
      return .rules resources (← .order (rulesOrder context feature resources))
  | .counters =>
    let resources ← checkedPlan context .counters
    Plan.reworded (.query feature.name) do
      return .counters (← .order (countersOrder context feature resources))

/-- What the command does. -/
def plan (context : Context) : Plan Dump := do
  let feature ← .done (choice context)
  let tables ← tablesPlan context feature
  return Dump.framed ("############## NIC FD: " ++ feature.name ++ " info ############")
    (tables.view (chosenStage context))

theorem reads_checkHardware (context : Context) (view : View) (resources : DirectorResources) :
    ReadsTold context.target.address (hardwarePlan view resources)
      (checkHardware view resources) := by
  cases view with
  | hardware => exact .pure _
  | counters => exact .done _
  | rules =>
    exact .bind (.done _) fun _ =>
      .ite (.bind (.note _) fun _ => .done _) (.done _)

theorem reads_fetchChecked (context : Context) (view : View) :
    ReadsTold context.target.address (checkedPlan context view) (fetchChecked context view) :=
  .bind (Planned.told (reads_fetchResources context)
      (Wording.told_failed fun _ => "fail to obtain fd hardware configuration."))
    fun resources => .bind (reads_checkHardware _ view resources) fun _ =>
      .bind (.done _) fun _ => .pure _

theorem reads_fetchTables (context : Context) (feature : Feature View) :
    ReadsTold context.target.address (tablesPlan context feature)
      (fetchTables context feature) := by
  have told := Wording.told_query feature.name
  rw [fetchTables, tablesPlan]
  cases feature.kind with
  | hardware => exact Planned.told (.bind (reads_fetchResources _) fun _ => .pure _) told
  | rules =>
    exact .bind (reads_fetchChecked _ _) fun resources =>
      Planned.told (.bind (reads_fetchRules _ _ resources) fun _ => .pure _) told
  | counters =>
    exact .bind (reads_fetchChecked _ _) fun resources =>
      Planned.told (.bind (reads_fetchCounters _ _ resources) fun _ => .pure _) told

theorem reads_execute (context : Context) :
    ReadsTold context.target.address (plan context) (execute context) :=
  .bind (.done _) fun feature => .bind (reads_fetchTables context feature) fun _ => .pure _

end Director

/-! ### Receive-side scaling -/

namespace Scaling

/-- What a view shows. -/
def viewOrder (context : Context) (feature : Feature View) : Order Tables :=
  .blob PlainHead ScalingRequest commandName (.ofNic .rss feature.subcommand) maxScalingBytes
    (blockRequest context.target.address) (fun _ => Nat.le_of_ble_eq_true rfl)
    (Tables.parse feature.kind)

/-- The words of a query, with the number of its error. -/
def wording (feature : Feature View) : Wording :=
  .failed fun cause =>
    "failed to query " ++ feature.name ++ ", ret = " ++ Numeral.signedDecimal cause.errno ++ "."

/-- What the command does. -/
def plan (context : Context) : Plan Dump := do
  let feature ← .done (choice context)
  let tables ← (Plan.order (viewOrder context feature)).reworded (wording feature)
  return Dump.framed ("################### RSS " ++ feature.name ++ " ###################")
    tables.view

theorem reads_fetchTables (context : Context) (feature : Feature View) :
    Reads context.target.address (.order (viewOrder context feature))
      (fetchTables context feature) := by
  have carries : fetchTables context feature = (viewOrder context feature).exchange := rfl
  rw [carries]
  exact .order _ (names_blob fun _ => ⟨_, rfl⟩)

theorem reads_execute (context : Context) :
    ReadsTold context.target.address (plan context) (execute context) :=
  .bind (.done _) fun feature =>
    .bind (Planned.told (reads_fetchTables context feature)
      (show (wording feature).Told from Wording.told_failed _)) fun _ => .pure _

end Scaling

/-! ### Every command -/

namespace Command

/-- What a command does in a context: it is about a target, and carries out a plan. -/
inductive Does : (command : Command) → command.Context → Target → Plan Dump → Prop
  | director (context : Director.Context) :
      Does directorCommand context context.target (Director.plan context)
  | port (context : Port.Context) :
      Does portCommand context context.target (Port.plan context)
  | scaling (context : Scaling.Context) :
      Does scalingCommand context context.target (Scaling.plan context)

/-- Executing the command carries the plan out. All its orders are about the target, and all
errors of reading are told. -/
theorem Does.reads {command : Command} {context : command.Context} {target : Target}
    {plan : Plan Dump} (does : command.Does context target plan) :
    ReadsTold target.address plan (command.execute context) := by
  cases does with
  | director context => exact Director.reads_execute context
  | port context => exact Port.reads_execute context
  | scaling context => exact Scaling.reads_execute context

/-- Every command has a plan in each context. -/
theorem exists_does {command : Command} (listed : command ∈ Tool.commands)
    (context : command.Context) : ∃ target plan, command.Does context target plan := by
  simp only [Tool.commands, List.mem_cons, List.not_mem_nil, or_false] at listed
  rcases listed with rfl | rfl | rfl
  · exact ⟨_, _, .director context⟩
  · exact ⟨_, _, .port context⟩
  · exact ⟨_, _, .scaling context⟩

end Command

end NicScope
