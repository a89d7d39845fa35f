/-
This file says what a device does that conforms to the protocol of the register window. It
holds a response. Each round that is started completes before the looks at the completion
status run out, and the words of the round it found named when it was started are then in
the window, together with the length and the version of the response; what other registers
hold after that is not said. A request begins with round 0. The doorbell starts each of its
rounds if the first was completed by the trusted firmware; if it was completed by the
management unit, the later ones are started when the completion status is cleared. The device
is told by the accesses it can answer, so that how long each round takes is left open.
-/

import Mathlib.Logic.Function.Basic
import NicScope.Proofs.Device.RequestCourse

namespace NicScope

theorem Completion.byTrusted_or_byManagement {status : Completion}
    (complete : status.isComplete = true) : status = .byTrusted ∨ status = .byManagement := by
  cases status with
  | byTrusted => exact .inl rfl
  | byManagement => exact .inr rfl
  | _ => cases complete

theorem Completion.ofCode_code_of_isComplete {status : Completion}
    (complete : status.isComplete = true) : ofCode status.code = status := by
  rcases byTrusted_or_byManagement complete with rfl | rfl
  · rfl
  · rfl

/-- A response that is not longer than responses may be. -/
structure HeldResponse where
  version : UInt32
  words : List UInt32
  fits : words.length ≤ maxResponseWords

namespace HeldResponse

/-- The rounds of a response; an empty one takes a round too. -/
def rounds (response : HeldResponse) : Nat :=
  max 1 (roundsFor response.words.length)

/-- The words of a round. -/
def chunk (response : HeldResponse) (round : Nat) : List UInt32 :=
  (response.words.drop (round * wordsPerRound)).take wordsPerRound

/-- What the window holds once a round has completed. -/
structure Delivered (response : HeldResponse) (round : UInt32) (status : Completion)
    (registers : Nat → UInt32) : Prop where
  completion : registers Register.completion = status.code
  length : registers Register.responseWords = UInt32.ofNat response.words.length
  version : registers Register.responseVersion = response.version
  words : ∀ offset, (inside : offset < (response.chunk round.toNat).length) →
    registers (Register.responseData + offset) = (response.chunk round.toNat)[offset]

end HeldResponse

structure DeviceState where
  registers : Nat → UInt32
  /-- How the first round of the request completed, if it has. -/
  first : Option Completion
  /-- The round at work, with the looks at the completion status that have passed. -/
  executing : Option (UInt32 × Nat)

namespace DeviceState

/-- The round that is named in the window. -/
def round (state : DeviceState) : UInt32 :=
  state.registers Register.round

def put (state : DeviceState) (register : Nat) (value : UInt32) : DeviceState :=
  { state with registers := Function.update state.registers register value }

/-- Whether a write starts a round. -/
def Starts (state : DeviceState) (register : Nat) (value : UInt32) : Prop :=
  (register = Register.doorbell ∧ (state.round = 0 ∨ state.first ≠ some .byManagement)) ∨
    (register = Register.completion ∧ value = 0 ∧ state.round ≠ 0 ∧
      state.first = some .byManagement)

instance (state : DeviceState) (register : Nat) (value : UInt32) :
    Decidable (state.Starts register value) :=
  inferInstanceAs (Decidable (_ ∨ _))

/-- The round that is named begins; the first one begins a request. -/
def start (state : DeviceState) : DeviceState where
  registers := state.registers
  first := if state.round = 0 then none else state.first
  executing := some (state.round, 0)

@[simp] theorem registers_put (state : DeviceState) (register : Nat) (value : UInt32) :
    (state.put register value).registers = Function.update state.registers register value := rfl

@[simp] theorem round_put {state : DeviceState} {register : Nat} {value : UInt32}
    (other : Register.round ≠ register) : (state.put register value).round = state.round := by
  rw [round, registers_put, Function.update_of_ne other, round]

@[simp] theorem round_put_round (state : DeviceState) (value : UInt32) :
    (state.put Register.round value).round = value := by
  rw [round, registers_put, Function.update_self]

@[simp] theorem first_put (state : DeviceState) (register : Nat) (value : UInt32) :
    (state.put register value).first = state.first := rfl

end DeviceState

/-- The accesses that a device answers, which is given `polls` looks for each round. -/
inductive DeviceStep (polls : Nat) (response : HeldResponse) :
    DeviceState → Access → DeviceState → Prop
  | starts {state : DeviceState} {register : Nat} {value : UInt32}
      (starts : state.Starts register value) :
      DeviceStep polls response state (.write register value) (state.put register value).start
  | keeps {state : DeviceState} {register : Nat} {value : UInt32}
      (other : ¬ state.Starts register value) :
      DeviceStep polls response state (.write register value) (state.put register value)
  /-- A look at a round that is at work; it is not the last one there is. -/
  | passes {state : DeviceState} {round : UInt32} {passed : Nat}
      (working : state.executing = some (round, passed)) (early : passed + 1 < polls) :
      DeviceStep polls response state (.read Register.completion 0)
        { state with executing := some (round, passed + 1) }
  | completes {state : DeviceState} {round : UInt32} {passed : Nat} {status : Completion}
      {registers : Nat → UInt32} (working : state.executing = some (round, passed))
      (complete : status.isComplete = true)
      (delivered : response.Delivered round status registers) :
      DeviceStep polls response state (.read Register.completion status.code)
        ⟨registers, some (state.first.getD status), none⟩
  | shows {state : DeviceState} {register : Nat} (resting : state.executing = none) :
      DeviceStep polls response state (.read register (state.registers register)) state
  /-- While a round is at work anything may be in the registers that it fills, and the
  registers behind the completion status may always hold anything. -/
  | unsettled {state : DeviceState} {register : Nat} {value : UInt32}
      (free : (state.executing ≠ none ∧ register < Register.completion) ∨
        Register.completion < register) :
      DeviceStep polls response state (.read register value) state

/-- Accesses that a device answers one after another. -/
def DeviceRun (polls : Nat) (response : HeldResponse) :
    DeviceState → List Access → DeviceState → Prop
  | state, [], final => final = state
  | state, access :: later, final =>
    ∃ next, DeviceStep polls response state access next ∧
      DeviceRun polls response next later final

/-- A window behind which there is a conforming device: in each state of the window the device
stands somewhere, and it answers every access. At least one look is allowed, as a round
completes before the looks run out. -/
structure Conforms {σ : Type} (window : Window σ) (polls : Nat) (response : HeldResponse)
    (Stands : σ → DeviceState → Prop) : Prop where
  polled : 0 < polls
  reads : ∀ {state device} (register : Nat), Stands state device → ∃ next,
    DeviceStep polls response device (.read register (window.read register state).1) next ∧
      Stands (window.read register state).2 next
  writes : ∀ {state device} (register : Nat) (value : UInt32), Stands state device → ∃ next,
    DeviceStep polls response device (.write register value) next ∧
      Stands (window.write register value state).2 next

/-- The device goes along with whatever is done at the window. -/
theorem Conforms.run {σ : Type} {window : Window σ} {polls : Nat} {response : HeldResponse}
    {Stands : σ → DeviceState → Prop} (conforms : Conforms window polls response Stands)
    {accesses : List Access} {state final : σ} {device : DeviceState}
    (performs : window.Performs state accesses final) (stands : Stands state device) :
    ∃ after, DeviceRun polls response device accesses after ∧ Stands final after := by
  induction accesses generalizing state device with
  | nil =>
    obtain rfl : final = state := performs
    exact ⟨device, rfl, stands⟩
  | cons access later inductionHypothesis =>
    cases access with
    | read register value =>
      obtain ⟨rfl, performs⟩ := performs
      obtain ⟨next, step, stands⟩ := conforms.reads register stands
      obtain ⟨after, run, ends⟩ := inductionHypothesis performs stands
      exact ⟨after, ⟨next, step, run⟩, ends⟩
    | write register value =>
      obtain ⟨next, step, stands⟩ := conforms.writes register value stands
      obtain ⟨after, run, ends⟩ := inductionHypothesis performs stands
      exact ⟨after, ⟨next, step, run⟩, ends⟩

/-! ### What a device does with a round -/

theorem Awaited.of_cons {polls : Nat} {look status : Completion} {rest : List Completion}
    (awaited : Awaited polls (look :: rest) status) :
    (∃ left, polls = left + 1 ∧ look = .pending ∧ Awaited left rest status) ∨
      (look ≠ .pending ∧ look = status ∧ rest = []) := by
  cases awaited with
  | passed awaited => exact .inl ⟨_, rfl, rfl, awaited⟩
  | settled set => exact .inr ⟨set, rfl, rfl⟩

/-- What is read where no round is at work. -/
theorem DeviceStep.shown {polls : Nat} {response : HeldResponse} {device next : DeviceState}
    {register : Nat} {value : UInt32}
    (step : DeviceStep polls response device (.read register value) next)
    (resting : device.executing = none) (inside : register ≤ Register.completion) :
    next = device ∧ value = device.registers register := by
  cases step with
  | passes working => cases resting.symm.trans working
  | completes working => cases resting.symm.trans working
  | shows => exact ⟨rfl, rfl⟩
  | unsettled free =>
    rcases free with ⟨working, _⟩ | behind
    · exact absurd resting working
    · exact absurd behind (Nat.not_lt.mpr inside)

namespace DeviceRun

variable {polls : Nat} {response : HeldResponse} {device after : DeviceState}

theorem of_append {before later : List Access}
    (run : DeviceRun polls response device (before ++ later) after) :
    ∃ middle, DeviceRun polls response device before middle ∧
      DeviceRun polls response middle later after := by
  induction before generalizing device with
  | nil => exact ⟨device, rfl, run⟩
  | cons access rest inductionHypothesis =>
    obtain ⟨next, step, run⟩ := run
    obtain ⟨middle, first, second⟩ := inductionHypothesis run
    exact ⟨middle, ⟨next, step, first⟩, second⟩

/-- A round is named and nothing else happens. -/
theorem named {value : UInt32}
    (step : DeviceStep polls response device (.write Register.round value) after) :
    after.round = value ∧ after.first = device.first := by
  cases step with
  | starts starts =>
    rcases starts with ⟨doorbell, _⟩ | ⟨completion, _⟩
    · exact absurd doorbell (by decide)
    · exact absurd completion (by decide)
  | keeps => exact ⟨device.round_put_round value, rfl⟩

/-- The doorbell starts the first round of every request, and the later ones as long as the
management unit does not go on by itself. -/
theorem ringing (run : DeviceRun polls response device Access.ringing after)
    (rings : device.round = 0 ∨ device.first ≠ some .byManagement) :
    after.executing = some (device.round, 0) ∧
      after.first = if device.round = 0 then none else device.first := by
  obtain ⟨cleared, clear, rung, ring, rfl⟩ := run
  have first : Register.round ≠ Register.completion := by decide
  have second : Register.round ≠ Register.doorbell := by decide
  cases clear with
  | starts starts =>
    rcases starts with ⟨doorbell, _⟩ | ⟨_, _, later, byManagement⟩
    · exact absurd doorbell (by decide)
    · exact absurd (rings.resolve_left later) (not_not_intro byManagement)
  | keeps =>
    cases ring with
    | starts =>
      simp only [DeviceState.start, DeviceState.round_put second, DeviceState.round_put first,
        DeviceState.first_put, and_self]
    | keeps other =>
      refine absurd (.inl ⟨rfl, ?_⟩) other
      rw [DeviceState.round_put first]
      exact rings

/-- A round after the first starts the way that belongs to how the first one completed. -/
theorem starting {first : Completion}
    (run : DeviceRun polls response device (Access.starting first) after)
    (later : device.round ≠ 0) (known : device.first = some first)
    (complete : first.isComplete = true) :
    after.executing = some (device.round, 0) ∧ after.first = some first := by
  rw [Access.starting] at run
  split at run
  next byTrusted =>
    obtain ⟨executing, keeps⟩ := ringing run (.inr (by rw [known, byTrusted]; decide))
    rw [if_neg later, known] at keeps
    exact ⟨executing, keeps⟩
  next otherwise =>
    obtain ⟨cleared, clear, rfl⟩ := run
    have byManagement := (Completion.byTrusted_or_byManagement complete).resolve_left otherwise
    rw [byManagement] at known
    have other : Register.round ≠ Register.completion := by decide
    cases clear with
    | starts =>
      simp only [DeviceState.start, DeviceState.round_put other, DeviceState.first_put,
        if_neg later, known, byManagement, and_self]
    | keeps other => exact absurd (.inr ⟨rfl, rfl, later, known⟩) other

/-- However long the round takes, it completes before the looks run out, and what it comes to
is in the window. -/
theorem looks {codes : List UInt32} {remaining passed : Nat} {round : UInt32}
    {status : Completion} (awaited : Awaited remaining (codes.map Completion.ofCode) status)
    (run : DeviceRun polls response device (Access.looksAt codes) after)
    (working : device.executing = some (round, passed)) (left : passed + remaining = polls)
    (looked : 0 < remaining) :
    status.isComplete = true ∧ after.executing = none ∧
      after.first = some (device.first.getD status) ∧
      response.Delivered round status after.registers := by
  induction codes generalizing device passed remaining with
  | nil =>
    cases awaited with
    | exhausted => exact absurd looked (Nat.lt_irrefl 0)
  | cons code rest inductionHypothesis =>
    obtain ⟨next, look, run⟩ := run
    cases look with
    | passes already early =>
      cases working.symm.trans already
      obtain ⟨fewer, rfl, _, awaited⟩ | ⟨set, _⟩ := awaited.of_cons
      · exact (inductionHypothesis awaited run rfl (by omega) (by omega) :)
      · exact absurd rfl set
    | @completes _ _ found _ already complete delivered =>
      cases working.symm.trans already
      rw [List.map_cons, Completion.ofCode_code_of_isComplete complete] at awaited
      obtain ⟨_, _, rfl, _⟩ | ⟨_, rfl, last⟩ := awaited.of_cons
      · cases complete
      · obtain rfl := List.map_eq_nil_iff.mp last
        obtain rfl := run
        exact ⟨complete, rfl, rfl, delivered⟩
    | shows resting => cases working.symm.trans resting
    | unsettled free =>
      rcases free with ⟨_, before⟩ | behind
      · exact absurd before (Nat.lt_irrefl _)
      · exact absurd behind (Nat.lt_irrefl _)

/-- Where no round is at work, the words that are read are in the window. -/
theorem reads {start : Nat} {values : List UInt32}
    (run : DeviceRun polls response device (Access.readsFrom start values) after)
    (resting : device.executing = none)
    (inside : start + values.length ≤ Register.completion) :
    after = device ∧ ∀ offset, (held : offset < values.length) →
      values[offset] = device.registers (start + offset) := by
  induction values generalizing start device with
  | nil => exact ⟨run, fun offset held => absurd held (Nat.not_lt_zero offset)⟩
  | cons value rest inductionHypothesis =>
    obtain ⟨next, read, run⟩ := run
    rw [List.length_cons] at inside
    obtain ⟨rfl, shown⟩ := read.shown resting (by omega)
    obtain ⟨rfl, later⟩ := inductionHypothesis run resting (by omega)
    refine ⟨rfl, fun offset held => ?_⟩
    cases offset with
    | zero => exact shown
    | succ offset =>
      rw [List.getElem_cons_succ, later offset (Nat.lt_of_succ_lt_succ held), Nat.add_assoc,
        Nat.add_comm 1]

end DeviceRun

/-! ### A device that conforms -/

namespace HeldResponse

variable (response : HeldResponse)

/-- Fills the window with a round and leaves everything else as it is. -/
def fill (round : UInt32) (status : Completion) (registers : Nat → UInt32) (register : Nat) :
    UInt32 :=
  if register = Register.completion then status.code
  else if register = Register.responseWords then UInt32.ofNat response.words.length
  else if register = Register.responseVersion then response.version
  else ((response.chunk round.toNat)[register - Register.responseData]?).getD (registers register)

theorem delivered_fill (round : UInt32) (status : Completion) (registers : Nat → UInt32) :
    response.Delivered round status (response.fill round status registers) where
  completion := if_pos rfl
  length := rfl
  version := rfl
  words offset inside := by
    have short : (response.chunk round.toNat).length ≤ wordsPerRound := List.length_take_le _ _
    have before : Register.responseData + wordsPerRound ≤ Register.completion := by decide
    have behind : Register.responseWords < Register.responseData := by decide
    have front : Register.responseVersion < Register.responseData := by decide
    rw [fill, if_neg (by omega), if_neg (by omega), if_neg (by omega), Nat.add_sub_cancel_left,
      List.getElem?_eq_getElem inside, Option.getD_some]

/-- The window of a device that holds the response, lets as many looks pass in every round as
`delay` says and completes each round with `status`. -/
def window (status : Completion) (delay : Nat) : Window DeviceState where
  read register := fun device =>
    match device.executing with
    | none => (device.registers register, device)
    | some (round, passed) =>
      if register = Register.completion then
        if passed < delay then (0, { device with executing := some (round, passed + 1) })
        else (status.code,
          ⟨response.fill round status device.registers, some (device.first.getD status), none⟩)
      else (device.registers register, device)
  write register value := fun device =>
    ((), if device.Starts register value then (device.put register value).start
      else device.put register value)

theorem conforms_window {status : Completion} {delay polls : Nat}
    (complete : status.isComplete = true) (early : delay < polls) :
    Conforms (response.window status delay) polls response Eq where
  polled := Nat.zero_lt_of_lt early
  reads := by
    rintro device _ register rfl
    refine ⟨_, ?_, rfl⟩
    simp only [window]
    split
    next resting => exact .shows resting
    next round passed working =>
      split
      next look =>
        subst look
        split
        next passes => exact .passes working (Nat.lt_of_le_of_lt passes early)
        next done => exact .completes working complete (response.delivered_fill _ _ _)
      next elsewhere =>
        refine .unsettled ?_
        rw [working]
        exact (Nat.lt_or_gt_of_ne elsewhere).imp_left fun before => ⟨Option.some_ne_none _, before⟩
  writes := by
    rintro device _ register value rfl
    refine ⟨_, ?_, rfl⟩
    simp only [window]
    split
    next starts => exact .starts starts
    next other => exact .keeps other

end HeldResponse

end NicScope
