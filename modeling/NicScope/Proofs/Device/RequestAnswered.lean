/-
This file proves that a conforming device is understood: whatever is asked in a request that
is not too long, and however long each round takes, the whole response arrives. On the way
the rounds are named one after another, and the doorbell is rung as often as the device needs
it to be.
-/

import NicScope.Proofs.Device.ConformingDevice
import NicScope.Proofs.Device.Rounds

namespace NicScope

open Access

variable {polls : Nat} {response : HeldResponse} {device after : DeviceState}

/-! ### Rounds that a device completes -/

theorem HeldResponse.roundsFor_le (response : HeldResponse) :
    roundsFor response.words.length ≤ 10 := by
  have fits := response.fits
  simp only [roundsFor, wordsPerRound, maxResponseWords] at fits ⊢
  omega

/-- The number of a round after the first can be written. -/
theorem HeldResponse.toNat_ofNat (response : HeldResponse) {round : Nat} (later : 0 < round)
    (inside : round < roundsFor response.words.length) :
    (UInt32.ofNat round).toNat = round ∧ UInt32.ofNat round ≠ 0 := by
  have bound : round ≤ 10 := Nat.le_trans (Nat.le_of_lt inside) response.roundsFor_le
  have value : (UInt32.ofNat round).toNat = round :=
    UInt32.toNat_ofNat_of_lt' (Nat.lt_of_le_of_lt bound (by decide))
  refine ⟨value, fun zero => Nat.ne_of_gt later ?_⟩
  rw [← value, zero]
  rfl

theorem inside_of_round {words : List UInt32} (fits : words.length ≤ wordsPerRound) :
    Register.responseData + words.length ≤ Register.completion := by
  have inside : Register.responseData + wordsPerRound ≤ Register.completion := by decide
  omega

/-- As many words as a round of the response has, read where the round has been delivered. -/
theorem HeldResponse.Delivered.read {round : UInt32} {status : Completion} {words : List UInt32}
    {registers : Nat → UInt32} (delivered : response.Delivered round status registers)
    (length : words.length =
      min wordsPerRound (response.words.length - round.toNat * wordsPerRound))
    (shown : ∀ offset, (held : offset < words.length) →
      words[offset] = registers (Register.responseData + offset)) :
    words = response.chunk round.toNat := by
  have same : words.length = (response.chunk round.toNat).length := by
    rw [length, HeldResponse.chunk, List.length_take, List.length_drop]
  refine List.ext_getElem same fun offset held inside => ?_
  rw [shown offset held, delivered.words offset inside]

namespace DeviceRun

variable {codes : List UInt32} {status first : Completion} {rest : List Access}
  (awaited : Awaited polls (codes.map Completion.ofCode) status) (polled : 0 < polls)
include awaited polled

theorem firstRound
    (run : DeviceRun polls response device
      (.write Register.round 0 :: (Access.ringing ++ (looksAt codes ++ rest))) after) :
    ∃ done, status.isComplete = true ∧ done.executing = none ∧ done.first = some status ∧
      response.Delivered 0 status done.registers ∧ DeviceRun polls response done rest after := by
  obtain ⟨namedState, name, run⟩ := run
  obtain ⟨started, start, run⟩ := run.of_append
  obtain ⟨done, look, run⟩ := run.of_append
  obtain ⟨round, _⟩ := named name
  obtain ⟨executing, fresh⟩ := ringing start (.inl round)
  rw [round] at executing
  rw [if_pos round] at fresh
  obtain ⟨complete, rests, first, delivered⟩ := looks awaited look executing (Nat.zero_add _) polled
  rw [fresh, Option.getD_none] at first
  exact ⟨done, complete, rests, first, delivered, run⟩

theorem laterRound {round : UInt32}
    (run : DeviceRun polls response device
      (.write Register.round round :: (Access.starting first ++ (looksAt codes ++ rest))) after)
    (later : round ≠ 0) (known : device.first = some first) (byDevice : first.isComplete = true) :
    ∃ done, status.isComplete = true ∧ done.executing = none ∧ done.first = some first ∧
      response.Delivered round status done.registers ∧
      DeviceRun polls response done rest after := by
  obtain ⟨namedState, name, run⟩ := run
  obtain ⟨started, start, run⟩ := run.of_append
  obtain ⟨done, look, run⟩ := run.of_append
  obtain ⟨rfl, keeps⟩ := named name
  obtain ⟨executing, keeps⟩ := starting start later (keeps.trans known) byDevice
  obtain ⟨complete, rests, first, delivered⟩ := looks awaited look executing (Nat.zero_add _) polled
  rw [keeps, Option.getD_some] at first
  exact ⟨done, complete, rests, first, delivered, run⟩

end DeviceRun

namespace RoundsCourse

variable {total left round : Nat} {version : UInt32} {words : List UInt32}
  {rounds : List (List Access)} {outcome : Window.Outcome} {first : Completion}

/-- Every round after the first is started by the doorbell or by the cleared status, according
to how the first one completed. -/
theorem rings
    (course : RoundsCourse polls first version total left round words rounds outcome) :
    rounds.map (valuesWritten Register.doorbell) =
      List.replicate rounds.length (if first = .byTrusted then [1] else []) := by
  induction course with
  | finished => rfl
  | broken =>
    rw [List.map_singleton, valuesWritten_append, valuesWritten_starting,
      valuesWritten_looksAt, List.append_nil]
    rfl
  | read _ _ _ _ inductionHypothesis =>
    rw [List.map_cons, inductionHypothesis, valuesWritten_append, valuesWritten_starting,
      valuesWritten_append, valuesWritten_looksAt, valuesWritten_readsFrom, List.append_nil,
      List.append_nil]
    rfl

/-- A device that completed the first round delivers the others too. -/
theorem answered
    (course : RoundsCourse polls first response.version response.words.length left round words
      rounds outcome)
    (run : DeviceRun polls response device (Access.rounds round rounds) after)
    (polled : 0 < polls) (known : device.first = some first) (byDevice : first.isComplete = true)
    (carried : words = response.words.take (round * wordsPerRound))
    (remaining : left = roundsFor response.words.length - round) (later : 0 < round) :
    outcome = ⟨.ok ⟨0, response.version, response.words⟩, []⟩ ∧ rounds.length = left := by
  induction course generalizing device with
  | @finished round words =>
    have all : response.words.length ≤ round * wordsPerRound := by
      simp only [roundsFor, wordsPerRound] at remaining ⊢
      omega
    rw [carried, List.take_of_length_le all]
    exact ⟨rfl, rfl⟩
  | @broken left round words codes status awaited incomplete =>
    obtain ⟨_, other⟩ := response.toNat_ofNat later (by omega)
    rw [Access.rounds, Access.rounds, List.append_assoc] at run
    obtain ⟨_, complete, _⟩ := DeviceRun.laterRound awaited polled run other known byDevice
    cases incomplete.symm.trans complete
  | @read left round words codes more status behind outcome awaited complete length rest
      inductionHypothesis =>
    obtain ⟨number, other⟩ := response.toNat_ofNat later (by omega)
    have fits := length_le_wordsPerRound length
    rw [Access.rounds, List.append_assoc, List.append_assoc] at run
    obtain ⟨done, _, rests, keeps, delivered, run⟩ :=
      DeviceRun.laterRound awaited polled run other known byDevice
    obtain ⟨_, read, onward⟩ := run.of_append
    obtain ⟨rfl, shown⟩ := DeviceRun.reads read rests (inside_of_round fits)
    have chunk : more = response.chunk round := by
      rw [← number]
      exact delivered.read (by rw [number, length]) shown
    have step := inductionHypothesis onward keeps ?_ (by omega) (Nat.succ_pos round)
    · exact ⟨step.1, congrArg Nat.succ step.2⟩
    · rw [carried, chunk, HeldResponse.chunk, ← List.take_add, Nat.succ_mul]

end RoundsCourse

/-! ### The whole request -/

/-- What becomes of a request to a device that holds `response`: all of it arrives, the rounds
are named in turn, and the doorbell is rung in every one of them if the trusted firmware
completed the first, and in the first alone if the management unit did. -/
structure Answered (response : HeldResponse) (accesses : List Access) (outcome : Window.Outcome) :
    Prop where
  whole : outcome = ⟨.ok ⟨0, response.version, response.words⟩, []⟩
  named : valuesWritten Register.round accesses =
    (List.range response.rounds).map UInt32.ofNat
  rung : ∃ first later, roundsOf accesses = first :: later ∧
    (status first = .byTrusted ∧
        (∀ round ∈ first :: later, valuesWritten Register.doorbell round = [1]) ∧
        valuesWritten Register.doorbell accesses = List.replicate response.rounds 1 ∨
      status first = .byManagement ∧ valuesWritten Register.doorbell first = [1] ∧
        (∀ round ∈ later, valuesWritten Register.doorbell round = []) ∧
        valuesWritten Register.doorbell accesses = [1])

section Opening

variable (codes : List UInt32) (stated version : UInt32) (words : List UInt32)

theorem status_opening {first : Completion}
    (awaited : Awaited polls (codes.map Completion.ofCode) first)
    (fits : words.length ≤ wordsPerRound) :
    status (Access.ringing ++ (looksAt codes ++ answer stated version words)) = first := by
  rw [← starting_byTrusted]
  exact (waited_round .byTrusted _ awaited (plain_answer stated version fits)
    (looks_answer stated version fits)).2

theorem rings_opening :
    valuesWritten Register.doorbell
      (Access.ringing ++ (looksAt codes ++ answer stated version words)) = [1] := by
  have silent : valuesWritten Register.doorbell (answer stated version words) = [] :=
    valuesWritten_readsFrom Register.doorbell Register.responseData words
  rw [valuesWritten_append, valuesWritten_append, valuesWritten_looksAt, silent]
  rfl

end Opening

namespace RequestCourse

variable {rounds : List (List Access)} {outcome : Window.Outcome} {query : Query}

/-- The first round brings the first words, and a device that completed it delivers the others
too. -/
theorem delivers (course : RequestCourse polls rounds outcome)
    (run : DeviceRun polls response device (Access.rounds 0 rounds) after) (polled : 0 < polls) :
    outcome = ⟨.ok ⟨0, response.version, response.words⟩, []⟩ ∧
      ∃ opening later, rounds = opening :: later ∧ later.length + 1 = response.rounds ∧
        (status opening).isComplete = true ∧ valuesWritten Register.doorbell opening = [1] ∧
        later.map (valuesWritten Register.doorbell) = List.replicate later.length
          (if status opening = .byTrusted then [1] else []) := by
  have small : (UInt32.ofNat response.words.length).toNat = response.words.length :=
    UInt32.toNat_ofNat_of_lt' (Nat.lt_of_le_of_lt response.fits (by decide))
  cases course with
  | failed awaited incomplete =>
    rw [Access.rounds, Access.rounds, List.append_assoc] at run
    obtain ⟨_, complete, _⟩ := DeviceRun.firstRound awaited polled run
    cases incomplete.symm.trans complete
  | overlong awaited _ long =>
    rw [Access.rounds, List.append_assoc, List.append_assoc] at run
    obtain ⟨done, _, rests, _, delivered, next, read, _⟩ :=
      DeviceRun.firstRound awaited polled run
    obtain ⟨_, stated⟩ := read.shown rests (by decide)
    rw [stated, delivered.length, small] at long
    exact absurd long (Nat.not_lt.mpr response.fits)
  | @read codes words first stated version later outcome awaited complete fits length rest =>
    have bound := length_le_wordsPerRound length
    rw [Access.rounds, List.append_assoc, List.append_assoc] at run
    obtain ⟨done, _, rests, known, delivered, _, state, _, carry, behind⟩ :=
      DeviceRun.firstRound awaited polled run
    obtain ⟨rfl, states⟩ := state.shown rests (by decide)
    obtain ⟨rfl, carries⟩ := carry.shown rests (by decide)
    rw [states, delivered.length, small] at rest length
    rw [carries, delivered.version] at rest
    obtain ⟨_, read, onward⟩ := behind.of_append
    obtain ⟨rfl, shown⟩ := DeviceRun.reads read rests (inside_of_round bound)
    have chunk := delivered.read (by rw [length]; rfl) shown
    have carried : words = response.words.take (1 * wordsPerRound) := by
      rw [chunk, HeldResponse.chunk, Nat.one_mul]
      exact congrArg (List.take wordsPerRound) List.drop_zero
    obtain ⟨whole, count⟩ := rest.answered onward polled known complete carried rfl Nat.one_pos
    have status := status_opening codes stated version words awaited bound
    refine ⟨whole, _, later, rfl, ?_, ?_, rings_opening codes stated version words, ?_⟩
    · rw [count, HeldResponse.rounds]
      omega
    · rw [status]
      exact complete
    · rw [status]
      exact rest.rings

theorem answered (course : RequestCourse polls rounds outcome)
    (run : DeviceRun polls response device (Access.rounds 0 rounds) after) (polled : 0 < polls)
    (short : query.words.length ≤ Request.maxWords) :
    Answered response (placing query ++ Access.rounds 0 rounds) outcome := by
  have opened := course.roundsOf_eq short
  have plain : ∀ accesses ∈ rounds, ∀ access ∈ accesses, access.namesRound = false :=
    fun accesses member access within => ((course.waited accesses member).plain access within).2
  obtain ⟨whole, opening, later, rfl, count, complete, rings, rungLater⟩ :=
    course.delivers run polled
  have rung (accesses : List Access) (member : accesses ∈ later) :
      valuesWritten Register.doorbell accesses =
        if status opening = .byTrusted then [1] else [] :=
    List.eq_of_mem_replicate (rungLater ▸ List.mem_map_of_mem member)
  have total : valuesWritten Register.doorbell
      (placing query ++ Access.rounds 0 (opening :: later)) =
      [1] ++ (List.replicate later.length
        (if status opening = .byTrusted then [1] else [])).flatten := by
    rw [valuesWritten_append, valuesWritten_placing short (.inr rfl), List.nil_append,
      valuesWritten_rounds (by decide), List.map_cons, rings, rungLater, List.flatten_cons]
  refine ⟨whole, ?_, opening, later, opened, ?_⟩
  · rw [valuesWritten_append, valuesWritten_placing short (.inl rfl), List.nil_append,
      valuesWritten_round_rounds plain, List.length_cons, count, List.range_eq_range']
  · rcases Completion.byTrusted_or_byManagement complete with byTrusted | byManagement
    · rw [byTrusted, if_pos rfl, List.flatten_replicate_singleton] at total
      refine .inl ⟨byTrusted, fun accesses member => ?_, ?_⟩
      · rcases List.mem_cons.mp member with rfl | behind
        · exact rings
        · rw [rung accesses behind, if_pos byTrusted]
      · rw [total, ← count]
        rfl
    · rw [byManagement, if_neg (by decide), List.flatten_replicate_nil] at total
      refine .inr ⟨byManagement, rings, fun accesses behind => ?_, total⟩
      rw [rung accesses behind, byManagement, if_neg (by decide)]

end RequestCourse

namespace Window

variable {σ : Type} {window : Window σ} {Stands : σ → DeviceState → Prop}

/-- A request that is not too long brings the whole response of a conforming device, however
long the device takes for each round. -/
theorem request_of_conforming (conforms : Conforms window polls response Stands) {query : Query}
    (short : query.words.length ≤ Request.maxWords) {state : σ} (stands : Stands state device) :
    Answered response (window.accesses polls query state)
        (window.request polls query state).1 ∧
      ∃ after, Stands (window.request polls query state).2 after := by
  obtain ⟨performs, course⟩ := window.request_course polls query state
  rw [if_neg (Nat.not_lt.mpr short)] at course
  obtain ⟨rounds, laid, course⟩ := course
  obtain ⟨after, run, ends⟩ := conforms.run performs stands
  rw [laid] at run ⊢
  obtain ⟨_, _, run⟩ := run.of_append
  exact ⟨course.answered run conforms.polled short, after, ends⟩

/-- 121 words arrive in three rounds of a device that lets two looks pass in each, and whose
window holds something else before. -/
theorem request_threeRounds :
    let response : HeldResponse := ⟨3, List.replicate 121 9, by decide⟩
    let query : Query := ⟨⟨0, 1, 2, 3⟩, [4, 5]⟩
    let device : DeviceState := ⟨fun _ => 7, some .byTrusted, none⟩
    Conforms (response.window .byManagement 2) 3 response Eq ∧
      query.words.length ≤ Request.maxWords ∧
      Answered response ((response.window .byManagement 2).accesses 3 query device)
        ((response.window .byManagement 2).request 3 query device).1 := by
  intro response query device
  have conforms : Conforms (response.window .byManagement 2) 3 response Eq :=
    response.conforms_window rfl (by decide)
  have short : query.words.length ≤ Request.maxWords := by decide
  exact ⟨conforms, short, (request_of_conforming conforms short rfl).1⟩

end Window

end NicScope
