/-
The command that dumps the flow director. Rules and counters belong to a stage,
which must be chosen, and one of them may be chosen by its index. They are read
after the hardware has been asked what it can do; hardware whose keys cannot be
taken apart is refused.
-/

import NicScope.Command.DirectorView
import NicScope.Command.Interface
import NicScope.Feature
import NicScope.Transfer.Fetch

namespace NicScope

namespace Director

/-- What can be dumped. -/
inductive View where
  | hardware | rules | counters
  deriving DecidableEq, Repr

def features : List (Feature View) :=
  [⟨"hw_info", 0, false, .hardware⟩, ⟨"rules", 1, true, .rules⟩, ⟨"counter", 2, true, .counters⟩]

/-- What the options of the command choose. -/
structure Context where
  target : Target
  feature : Option (Feature View)
  /-- The one rule or counter to show. -/
  index : Option UInt16
  /-- The stage, counted from zero. -/
  stage : Option (Fin 2)
  deriving DecidableEq, Repr

/-! ### Options -/

def commandName : String := "nic_fd"

/-- Chooses the view. -/
def chooseView (argument : Option String) : OptionAction Context Unit := do
  let feature ← Feature.select features argument "please input valid subfunction."
  modify fun context => { context with feature := some feature }

/-- Chooses one rule or counter. -/
def chooseIndex (argument : Option String) : OptionAction Context Unit := do
  let value ← requireUnsigned argument "parse --id/--index parameter failed."
  if value.toNat ≥ UInt16.size then
    throw (.invalidArgument "the id is truncated. it should less than 65535.")
  modify fun context => { context with index := some value.toUInt16 }

/-- Chooses the stage; only the first can be shown. -/
def chooseStage (argument : Option String) : OptionAction Context Unit := do
  let value ← requireUnsigned argument "parse -stage/--stage_no parameter failed."
  match value.toNat with
  | 1 => modify fun context => { context with stage := some 0 }
  | 2 => throw (.unsupported "unsupport for querying stage2 entry!")
  | _ =>
    throw (.invalidArgument "-stage/--stage_no parameter is invalid, please use 1 or 2!")

def options (files : FileTree) (systemRoot : String) : List (CommandOption Context) :=
  [.help,
    Interface.option files systemRoot fun target context => { context with target },
    ⟨"-du", "--dump", true, chooseView⟩,
    ⟨"-id", "--index", true, chooseIndex⟩,
    ⟨"-st", "--stage", true, chooseStage⟩]

def optionHelp : String :=
  Command.helpLine ++ Interface.helpLine "    " ++
    Dump.lines
      ["      [-du/--dump hw_info ]",
        "              dump fd hardware info.",
        "      [-du/--dump rules -st/--stage <stage_no> -id/--index <rule_id> ]",
        "              dump all rules or one rule info of certain stage fd.",
        "      [-du/--dump counter -st/--stage <stage_no> -id/--index <counter_id> ]",
        "              dump all counters or one counter stats of certain stage fd.",
        "",
        "    Note: dump all entries without '-id/--index'"]

/-! ### Checks -/

/-- Refuses choices that do not go with the view. -/
def checkChoices (context : Context) (feature : Feature View) : Except Error Unit :=
  if feature.kind = .hardware then
    if context.index.isNone && context.stage.isNone then .ok ()
    else .error (.invalidArgument "no need '-id/--index' and '-st/--stage' parameter.")
  else if context.stage.isSome then .ok ()
  else .error (.invalidArgument "please input '-st/--stage' parameter.")

/-- The view to dump, if the choices are good. -/
def choice (context : Context) : Except Error (Feature View) := do
  context.target.requirePhysical
  match context.feature with
  | none => .error (.usage "-du/--dump parameter error!")
  | some feature =>
    checkChoices context feature
    return feature

/-- The stage to ask about. -/
def chosenStage (context : Context) : Fin 2 :=
  context.stage.getD 0

/-- Refuses a first stage without entries. -/
def checkEntries (resources : DirectorResources) : Except Error Unit :=
  if resources.entries[0] = 0 then
    .error (.invalidArgument "The stage1's entry number is zero.")
  else .ok ()

/-- Refuses a first stage without counters. -/
def checkCounters (resources : DirectorResources) : Except Error Unit :=
  if resources.counters[0] = 0 then
    .error (.invalidArgument "The stage1's counter number is zero.")
  else .ok ()

/-- Refuses a stage with entries whose key is not built from tuples. -/
def checkSelection (resources : DirectorResources) (stage : Fin 2) : Except Error Unit :=
  let key := resources.keys.get stage
  if resources.entries.get stage = 0 || key.keySelection == .tuple then .ok ()
  else
    .error (.unsupported
      ("Only support for displaying the tuple key info, stage-" ++
        DirectorTables.stageNumber stage ++ " key_select=" ++
        Numeral.decimal key.selection.toNat))

/-- Refuses a mode whose active key is wider than the keys of the hardware. Their bits are
counted in a number of sixteen bits. -/
def checkWidth (resources : DirectorResources) : Except Error Unit := do
  let active := resources.mode.keyBits?.getD 0
  let widest ← checkedBelow UInt16.size (resources.keyBytes.toNat * 8)
  if active.toNat > widest then
    .error (.invalidArgument
      ("The active tcam bits(" ++ Numeral.decimal active.toNat ++
        ") is more than the max key bits(" ++ Numeral.decimal widest ++ ")."))
  else .ok ()

/-- Refuses keys that cannot be taken apart. -/
def checkKeys (resources : DirectorResources) : Except Error Unit := do
  checkSelection resources 0
  checkSelection resources 1
  checkWidth resources

/-- Refuses hardware that cannot be dumped; an unknown mode is only noted. -/
def checkHardware (view : View) (resources : DirectorResources) : Exchange Unit := do
  match view with
  | .hardware => return
  | .counters => Fetch.fromExcept (checkCounters resources)
  | .rules =>
    Fetch.fromExcept (checkEntries resources)
    if resources.mode.keyBits?.isNone then
      ExceptT.lift (Dialogue.note (.warning
        ("Unknown fd mode(" ++ Numeral.decimal resources.mode.code.toNat ++
          "), unsupport for displaying meta data info.")))
    Fetch.fromExcept (checkKeys resources)

/-- Refuses an index that is beyond what a stage has. -/
def checkIndex (context : Context) (view : View) (resources : DirectorResources) :
    Except Error Unit :=
  let stage := chosenStage context
  let count := match view with
    | .rules => resources.entries[stage]
    | .hardware | .counters => resources.counters[stage].toUInt32
  match context.index with
  | none => .ok ()
  | some index =>
    if index.toUInt32 < count then .ok ()
    else
      .error (.invalidArgument
        ("entry id(" ++ Numeral.decimal index.toNat ++
          ") must be less than hardware specifications(" ++ Numeral.decimal count.toNat ++ ")."))

/-! ### Questions -/

def header (subcommand : UInt32) : Header :=
  .ofNic .fd subcommand

/-- The request for a block of the description of the hardware. -/
def blockRequest (address : PciAddress) (block : UInt8) : DirectorRequest :=
  ⟨address, block, 0, 0, 0, 0⟩

/-- The request for a page of the rules or counters of the chosen stage. -/
def pageRequest (context : Context) (entry : UInt32) : DirectorRequest :=
  ⟨context.target.address, 0, UInt8.ofNat (chosenStage context).val,
    if context.index.isSome then 1 else 0, 0, entry⟩

/-- The entry that is chosen, or all of them. -/
def paging (context : Context) (entries : UInt32) (entrySize : Nat) : Paging :=
  match context.index with
  | some index => .one index.toUInt32 entries entrySize
  | none => .all entries entrySize

/-- What the hardware can do. -/
def fetchResources (address : PciAddress) : Exchange DirectorResources :=
  Fetch.record DirectorHead commandName (header 0) (blockRequest address)

/-- The resources that a view needs, which must be good for it. -/
def fetchChecked (context : Context) (view : View) : Exchange DirectorResources := do
  let resources ←
    Fetch.withCause (.failed "fail to obtain fd hardware configuration.")
      (fetchResources context.target.address)
  checkHardware view resources
  Fetch.fromExcept (checkIndex context view resources)
  return resources

/-- The rules of the chosen stage. -/
def fetchRules (context : Context) (feature : Feature View) (resources : DirectorResources) :
    Exchange (List Rule) :=
  let entries := resources.entries[chosenStage context]
  Fetch.table DirectorHead commandName (header feature.subcommand)
    (paging context entries resources.ruleSize) (pageRequest context)
    (Rule.parseMany resources.keyBytes.toNat)

/-- The counters of the chosen stage. -/
def fetchCounters (context : Context) (feature : Feature View)
    (resources : DirectorResources) : Exchange (List HitCounter) :=
  let entries := resources.counters[chosenStage context].toUInt32
  Fetch.table DirectorHead commandName (header feature.subcommand)
    (paging context entries (Record.size HitCounter)) (pageRequest context) Record.parseMany

/-- What the view shows. -/
def fetchTables (context : Context) (feature : Feature View) : Exchange DirectorTables := do
  match feature.kind with
  | .hardware =>
    Fetch.withCause (.query feature.name) do
      return .hardware (← fetchResources context.target.address)
  | .rules =>
    let resources ← fetchChecked context .rules
    Fetch.withCause (.query feature.name) do
      return .rules resources (← fetchRules context feature resources)
  | .counters =>
    let resources ← fetchChecked context .counters
    Fetch.withCause (.query feature.name) do
      return .counters (← fetchCounters context feature resources)

/-- Asks for what the view needs, and shows it. -/
def execute (context : Context) : Exchange Dump := do
  let feature ← Fetch.fromExcept (choice context)
  let tables ← fetchTables context feature
  return Dump.framed ("############## NIC FD: " ++ feature.name ++ " info ############")
    (tables.view (chosenStage context))

end Director

/-- Dumps the flow director. -/
def directorCommand : Command where
  name := Director.commandName
  summary := "dump fd info of nic!"
  optionHelp := Director.optionHelp
  Context := Director.Context
  initial := ⟨.unset, none, none, none⟩
  options := Director.options
  execute := Director.execute

end NicScope
