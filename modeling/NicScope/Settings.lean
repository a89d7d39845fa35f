/-
The settings of the program: where it keeps its logs and locks, where the system
publishes its devices, which device it talks to, and how long it waits. Settings
are built from choices, each of which may be left to its default; a limit of no
polls or no attempts is refused.
-/

import NicScope.Error.Basic
import NicScope.Host.Path

namespace NicScope

structure Settings where
  logDirectory : String
  lockDirectory : String
  /-- The root of the files in which the system publishes its devices. -/
  systemRoot : String
  vendor : UInt16
  device : UInt16
  revision : UInt8
  /-- The microseconds between two looks at the completion status. -/
  pollInterval : Nat
  /-- How often the completion status is looked at in one round. -/
  polls : Nat
  /-- How often the lock of the device is tried. -/
  lockAttempts : Nat
  /-- The microseconds between two tries for the lock of the device. -/
  lockGap : Nat
  /-- The most bytes of all words of a command line together. -/
  maxCommandBytes : Nat
  deriving DecidableEq, Repr

/-- What may be chosen; `none` stands for the default. -/
structure SettingChoices where
  logDirectory : Option String := none
  lockDirectory : Option String := none
  systemRoot : Option String := none
  pollInterval : Option Nat := none
  polls : Option Nat := none
  lockAttempts : Option Nat := none
  lockGap : Option Nat := none
  maxCommandBytes : Option Nat := none
  deriving DecidableEq, Repr

namespace SettingChoices

def build (choices : SettingChoices) : Except Error Settings :=
  if choices.polls = some 0 then
    .error (.invalidArgument "completion wait limit must be nonzero")
  else if choices.lockAttempts = some 0 then
    .error (.invalidArgument "device lock retries must be nonzero")
  else
    let logDirectory := choices.logDirectory.getD "/var/log/hikp/operation_logs"
    .ok
      { logDirectory
        lockDirectory := choices.lockDirectory.getD (Path.join logDirectory "locks")
        systemRoot := choices.systemRoot.getD "/sys"
        vendor := 0x19e5
        device := 0xa12f
        revision := 0x30
        pollInterval := choices.pollInterval.getD 1000
        polls := choices.polls.getD 5000
        lockAttempts := choices.lockAttempts.getD 5
        lockGap := choices.lockGap.getD 1000
        maxCommandBytes := choices.maxCommandBytes.getD 512 }

end SettingChoices

end NicScope
