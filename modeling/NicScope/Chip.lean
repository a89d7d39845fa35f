/-
The chips that the program knows and the commands each of them supports. The
system publishes the identification register of its first processor; bits 4 to
15 are a part number that tells the chip. A chip that is not recognised is taken
to support every command.
-/

import NicScope.Host.Basic
import NicScope.Text.Blank

namespace NicScope

inductive Chip where
  | hip09
  | hip10
  | hip10c
  | hip11
  | hip12
  | unknown
  deriving DecidableEq, Repr

namespace Chip

/-! ### Identification -/

/-- The chip with this value of the identification register. -/
def ofRegister (value : UInt64) : Chip :=
  match (value.toNat % 65536) / 16 with
  | 0xd02 => hip09
  | 0xd03 => hip10
  | 0xd45 => hip10c
  | 0xd22 => hip11
  | 0xd06 => hip12
  | _ => unknown

/-- The number that the chip is reported with. -/
def id : Chip → UInt32
  | hip09 => 0
  | hip10 => 1
  | hip10c => 2
  | hip11 => 3
  | hip12 => 4
  | unknown => 5

def render : Chip → String
  | hip09 => "HIP09"
  | hip10 => "HIP10"
  | hip10c => "HIP10C"
  | hip11 => "HIP11"
  | hip12 => "HIP12"
  | unknown => "unknown"

/-- Drops the mark of a hexadecimal number. -/
def dropMark : List Char → List Char
  | '0' :: 'x' :: rest => rest
  | '0' :: 'X' :: rest => rest
  | text => text

/-- Drops a plus sign. -/
def dropPlus : List Char → List Char
  | '+' :: rest => rest
  | text => text

/-- Reads the published text of the register: hexadecimal digits, with or without
a mark and a plus sign, between blanks. -/
def parseRegister? (text : String) : Option UInt64 :=
  match Numeral.readDigits? 16 (dropPlus (dropMark (Blank.trim text.toList))) with
  | some value => if value < UInt64.size then some (UInt64.ofNat value) else none
  | none => none

/-- Where the register is published. -/
def registerPath (systemRoot : String) : String :=
  Path.join systemRoot "devices/system/cpu/cpu0/regs/identification/midr_el1"

/-- The chip of the host. A register that cannot be read is noted in the log. -/
def detect (systemRoot : String) : StateM Host Chip := fun host =>
  match host.files.readText? (registerPath systemRoot) with
  | none => (unknown, host.note (.warning "failed to read MIDR"))
  | some text =>
    match parseRegister? text with
    | none => (unknown, host.note (.warning "failed to parse MIDR"))
    | some value => (ofRegister value, host)

/-! ### Commands -/

def cxlCommands : List String := ["cxl_cpa", "cxl_dl", "cxl_membar", "cxl_rcrb"]

def nicCommands : List String :=
  ["nic_dfx", "nic_fd", "nic_fec", "nic_gro", "nic_info", "nic_log", "nic_mac", "nic_ncsi",
    "nic_notify_pkt", "nic_port", "nic_port_fault", "nic_ppp", "nic_qos", "nic_queue", "nic_rss",
    "nic_torus", "nic_xsfp"]

def pcieCommands : List String := ["pcie_dumpreg", "pcie_info", "pcie_regrd", "pcie_trace"]

def roceCommands : List String :=
  ["roce_bond", "roce_caep", "roce_dfx_sta", "roce_global_cfg", "roce_gmv", "roce_mdb",
    "roce_pkt", "roce_qmm", "roce_rst", "roce_scc", "roce_timer", "roce_trp", "roce_tsp"]

def rohCommands : List String := ["roh_mac", "roh_show_bp", "roh_show_mib"]

def sasCommands : List String :=
  ["sas_anacq", "sas_anadq", "sas_dev", "sas_dqe", "sas_dump", "sas_errcode"]

def serdesCommands : List String := ["serdes_dump", "serdes_info"]

def busCommands : List String := ["ub_bp", "ub_crd", "ub_dfx", "ub_info", "ub_link", "unic_ppp"]

/-- The commands of a chip that is recognised. -/
def commands? : Chip → Option (List String)
  | hip09 | hip10 | hip10c =>
    some (cxlCommands ++ ["hccs", "info_collect"] ++ nicCommands ++ pcieCommands ++ roceCommands ++
      rohCommands ++ sasCommands ++ ["sata_dump"] ++ serdesCommands ++ ["socip_dumpreg"])
  | hip11 =>
    some (["cpu_ring", "info_collect"] ++ nicCommands ++ pcieCommands ++ roceCommands ++
      rohCommands ++ ["sata_dump", "sdma_dump"] ++ serdesCommands ++ ["socip_dumpreg"] ++
      busCommands)
  | hip12 =>
    some (["bbox_export", "hccs", "info_collect"] ++ pcieCommands ++ serdesCommands ++
      ["socip_dumpreg"])
  | unknown => none

def supports (chip : Chip) (command : String) : Bool :=
  match chip.commands? with
  | some commands => commands.contains command
  | none => true

end Chip

end NicScope
