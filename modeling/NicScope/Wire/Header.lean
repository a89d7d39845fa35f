/-
The header in front of every request: a version, and the firmware module, the
command and the subcommand that the request is for. The device answers each
round of a request with a completion status.
-/

import NicScope.Wire.Bytes

namespace NicScope

/-- The firmware module that a request goes to. -/
inductive FirmwareModule where
  | pcie | serdes | nic | socip | roce | roh | sas | sata | mac | dpdk | cxl | ub | hccs | sdma
  deriving DecidableEq, Repr

namespace FirmwareModule

def code : FirmwareModule → UInt32
  | pcie => 0
  | serdes => 1
  | nic => 2
  | socip => 3
  | roce => 4
  | roh => 5
  | sas => 6
  | sata => 7
  | mac => 8
  | dpdk => 9
  | cxl => 10
  | ub => 11
  | hccs => 16
  | sdma => 17

end FirmwareModule

/-- A command of the network module. -/
inductive NicCommand where
  | chipInfo | firmwareLog | registers | rss | qos | queue | ppp | fd | fec | gro | ncsi
  | notifyPacket | torus | portFault
  deriving DecidableEq, Repr

namespace NicCommand

def code : NicCommand → UInt32
  | chipInfo => 1
  | firmwareLog => 2
  | registers => 3
  | rss => 4
  | qos => 5
  | queue => 6
  | ppp => 7
  | fd => 8
  | fec => 9
  | gro => 10
  | ncsi => 11
  | notifyPacket => 12
  | torus => 13
  | portFault => 14

end NicCommand

/-- The four words in front of a request. -/
structure Header where
  version : UInt32
  module : UInt32
  command : UInt32
  subcommand : UInt32
  deriving DecidableEq, Repr, Inhabited

namespace Header

/-- The header of a command of `module`, with version 0. -/
def ofModule (module : FirmwareModule) (command subcommand : UInt32) : Header :=
  ⟨0, module.code, command, subcommand⟩

/-- The header of a network command. -/
def ofNic (command : NicCommand) (subcommand : UInt32) : Header :=
  ofModule .nic command.code subcommand

def words (header : Header) : List UInt32 :=
  [header.version, header.module, header.command, header.subcommand]

end Header

/-- How the device finished one round of a request. Either side of the firmware
may complete a round: the trusted side or the management unit. -/
inductive Completion where
  | pending
  | byTrusted
  | byManagement
  | invalidRequest
  | invalidParameter
  | parameterLack
  | executeFailed
  | hostTimeout
  | controllerTimeout
  | managementTimeout
  | unknown (code : UInt32)
  deriving DecidableEq, Repr

namespace Completion

def ofCode (code : UInt32) : Completion :=
  match code.toNat with
  | 0 => pending
  | 1 => byTrusted
  | 2 => byManagement
  | 3 => invalidRequest
  | 4 => invalidParameter
  | 5 => parameterLack
  | 6 => executeFailed
  | 7 => hostTimeout
  | 8 => controllerTimeout
  | 9 => managementTimeout
  | _ => unknown code

def code : Completion → UInt32
  | pending => 0
  | byTrusted => 1
  | byManagement => 2
  | invalidRequest => 3
  | invalidParameter => 4
  | parameterLack => 5
  | executeFailed => 6
  | hostTimeout => 7
  | controllerTimeout => 8
  | managementTimeout => 9
  | unknown code => code

/-- Whether the round completed, so that its data may be read. -/
def isComplete : Completion → Bool
  | byTrusted => true
  | byManagement => true
  | _ => false

theorem code_ofCode (code : UInt32) : (ofCode code).code = code := by
  apply UInt32.toNat_inj.mp
  unfold ofCode
  split <;> simp_all [Completion.code]

end Completion

end NicScope
