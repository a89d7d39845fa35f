/-
A device that goes through rounds written down in advance. Clearing the completion
status starts the next round: some looks at the status pass, then the round puts
its words into the window and sets the status. When no round is left the status
stays as it is. The registers keep what is written to them, and every write is kept.
-/

import NicScope.Device.Window

namespace NicScope

structure ScriptedRound where
  /-- The looks at the completion status that pass before the round is done. -/
  delay : Nat
  words : List UInt32
  version : Option UInt32
  /-- The length that is stated for the response. -/
  stated : Option UInt32
  status : UInt32

structure ScriptedDevice where
  registers : List UInt32
  rounds : List ScriptedRound
  /-- The looks that still pass, if a round has been started. -/
  pending : Option Nat
  /-- The registers written with their values, the latest first. -/
  writes : List (Nat × UInt32)

namespace ScriptedDevice

/-- Puts consecutive values into registers, the first of them at `register`. -/
def putFrom (registers : List UInt32) : (register : Nat) → List UInt32 → List UInt32
  | _, [] => registers
  | register, value :: rest => putFrom (registers.set register value) (register + 1) rest

/-- The registers when a round is done. -/
def deliver (registers : List UInt32) (round : ScriptedRound) : List UInt32 :=
  let registers := putFrom registers Register.responseData (round.words.take wordsPerRound)
  let registers := putFrom registers Register.responseVersion round.version.toList
  let registers := putFrom registers Register.responseWords round.stated.toList
  registers.set Register.completion round.status

/-- What a look at the completion status does. -/
def look (device : ScriptedDevice) : ScriptedDevice :=
  match device.pending, device.rounds with
  | some (delay + 1), _ => { device with pending := some delay }
  | some 0, round :: rest =>
    { device with
      registers := deliver device.registers round
      rounds := rest
      pending := none }
  | _, _ => device

/-- The looks that pass before the next round is done. -/
def nextDelay (device : ScriptedDevice) : Nat :=
  (device.rounds.head?.map ScriptedRound.delay).getD 0

def window : Window ScriptedDevice where
  read register := fun device =>
    let device := if register = Register.completion then device.look else device
    (device.registers.getD register 0, device)
  write register value := fun device =>
    let starts := register = Register.completion ∧ value = 0
    ((), { device with
      registers := device.registers.set register value
      pending := if starts then some device.nextDelay else device.pending
      writes := (register, value) :: device.writes })

end ScriptedDevice

end NicScope
