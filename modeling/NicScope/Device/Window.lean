/-
The register window of the device. Requests and responses share one window of 69
words: the header and the words of a request are written, the doorbell is rung,
and the completion status is looked at until the firmware has finished the round.
A response that is longer than one round is read over several. The window is
reached through two actions on a state that is not ours, and nothing is assumed
about what a register holds when it is read.
-/

import NicScope.Transfer.Response

namespace NicScope

/-- How the registers of a window are read and written. -/
structure Window (σ : Type) where
  read : (register : Nat) → StateM σ UInt32
  write : (register : Nat) → (value : UInt32) → StateM σ Unit

namespace Register

def responseVersion : Nat := 0
def responseWords : Nat := 1
def responseData : Nat := 2
def requestHeader : Nat := 4
def requestWords : Nat := 8
def round : Nat := 9
def requestData : Nat := 10
/-- The process that holds the device. -/
def holder : Nat := 62
def completion : Nat := 63
def doorbell : Nat := 64
def doorbellMask : Nat := 66
/-- Whether the doorbell belongs to a process. -/
def doorbellFlag : Nat := 68
/-- The number of registers. -/
def count : Nat := 69

end Register

/-- The response words that arrive in one round. -/
def wordsPerRound : Nat := 60

/-- The most words of a response. -/
def maxResponseWords : Nat := 600

namespace Window

variable {σ : Type}

/-- Writes consecutive registers, the first of them `register`. -/
def writeFrom (window : Window σ) (register : Nat) : List UInt32 → StateM σ Unit
  | [] => return
  | value :: rest => do
    window.write register value
    window.writeFrom (register + 1) rest

/-- Reads `count` consecutive registers, the first of them `register`. -/
def readFrom (window : Window σ) (register : Nat) : (count : Nat) → StateM σ (List UInt32)
  | 0 => return []
  | count + 1 => do
    let value ← window.read register
    let rest ← window.readFrom (register + 1) count
    return value :: rest

/-! ### Holding the device -/

/-- Makes the device ours: the doorbell is marked as taken and everything in front
of it is cleared. -/
def claim (window : Window σ) (process : UInt32) : StateM σ Unit := do
  window.write Register.doorbellFlag 1
  window.write Register.holder process
  window.write Register.doorbellMask 0
  window.writeFrom 0 (List.replicate Register.doorbell 0)

/-- Gives the device up, if the doorbell is still marked as taken. -/
def release (window : Window σ) : StateM σ Unit := do
  if (← window.read Register.doorbellFlag) = 1 then
    window.write Register.doorbellFlag 0
    window.write Register.doorbellMask 1

/-! ### Rounds -/

/-- Tells the firmware to execute a round. -/
def ring (window : Window σ) : StateM σ Unit := do
  window.write Register.completion 0
  window.write Register.doorbell 1

/-- Looks at the completion status until it is set, at most `polls` times. -/
def awaitCompletion (window : Window σ) : (polls : Nat) → StateM σ Completion
  | 0 => return .hostTimeout
  | polls + 1 => do
    let status := Completion.ofCode (← window.read Register.completion)
    if status = .pending then window.awaitCompletion polls else return status

/-- Lays a request into the window; what an earlier one left there is cleared. -/
def place (window : Window σ) (query : Query) : StateM σ Unit := do
  window.write Register.requestWords (UInt32.ofNat query.words.length)
  window.writeFrom Register.requestHeader query.header.words
  window.writeFrom Register.requestData (List.replicate Request.maxWords 0)
  window.writeFrom Register.requestData query.words
  window.write Register.round 0

/-- Starts a round after the first. The management unit goes on by itself once the
status is cleared; otherwise the doorbell is rung again. -/
def nextRound (window : Window σ) (first : Completion) (round : Nat) : StateM σ Unit := do
  window.write Register.round (UInt32.ofNat round)
  if first = .byTrusted then window.ring else window.write Register.completion 0

/-- What a request comes to: the reply, and what is to be noted about it. -/
structure Outcome where
  reply : Reply
  log : List LogRecord

/-- Reads the `left` rounds from `round` on, behind the words read before. `first`
is how the first round completed and `total` the length of the response. If a
round does not complete, the response fails with the words read so far. -/
def readRounds (window : Window σ) (polls : Nat) (first : Completion) (version : UInt32)
    (total : Nat) : (left round : Nat) → (words : List UInt32) → StateM σ Outcome
  | 0, _, words => return ⟨.ok ⟨0, version, words⟩, []⟩
  | left + 1, round, words => do
    window.nextRound first round
    let status ← window.awaitCompletion polls
    if status.isComplete then
      let more ← window.readFrom Register.responseData
        (min wordsPerRound (total - round * wordsPerRound))
      window.readRounds polls first version total left (round + 1) (words ++ more)
    else
      let text := "multi round failed, Error code:" ++
        Numeral.decimal status.code.toNat ++ "."
      return ⟨.ok ⟨-1, version, words⟩, [.error text]⟩

/-- Reads the response to a request whose first round has completed. -/
def readResponse (window : Window σ) (polls : Nat) (first : Completion) : StateM σ Outcome := do
  let stated ← window.read Register.responseWords
  let total := stated.toNat
  if total > maxResponseWords then return ⟨.error (.responseTooLarge stated), []⟩
  let version ← window.read Register.responseVersion
  let words ← window.readFrom Register.responseData (min wordsPerRound total)
  let rounds := (total + (wordsPerRound - 1)) / wordsPerRound
  window.readRounds polls first version total (rounds - 1) 1 words

/-- Sends a request and reads the response, looking at the completion status of
each round at most `polls` times. -/
def request (window : Window σ) (polls : Nat) (query : Query) : StateM σ Outcome := do
  if query.words.length > Request.maxWords then
    return ⟨.error (.requestTooLarge query.words.length), []⟩
  window.place query
  window.ring
  let first ← window.awaitCompletion polls
  if first.isComplete then window.readResponse polls first
  else return ⟨.error (.transport first), []⟩

end Window

end NicScope
