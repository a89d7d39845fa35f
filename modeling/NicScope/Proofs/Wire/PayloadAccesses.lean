/-
This file proves what any sequence of accesses to a payload comes to. An access succeeds exactly if
enough bytes remain; then it gives the next ones and moves behind them. Otherwise it says how far it
would have gone and how far the payload goes, and stays where it is, so that leaving it out changes
nothing in the accesses around it. Written back, what was taken is the payload up to the cursor.
-/

import NicScope.Proofs.Wire.ReadBack

namespace NicScope

namespace Bytes

theorem ofNat_toNat_of_length {bytes : Bytes} {width : Nat} (whole : bytes.length = width) :
    ofNat width (toNat bytes) = bytes :=
  whole ▸ ofNat_toNat bytes

theorem toNat_lt_of_length {bytes : Bytes} {width : Nat} (whole : bytes.length = width) :
    toNat bytes < 256 ^ width :=
  whole ▸ toNat_lt bytes

theorem toList_ofFn_getD {bytes : Bytes} {count : Nat} (whole : bytes.length = count) :
    (Vector.ofFn fun index : Fin count => bytes.getD index 0).toList = bytes := by
  refine List.ext_getElem (Vector.length_toList.trans whole.symm) fun index _ inside => ?_
  rw [Vector.getElem_toList, Vector.getElem_ofFn]
  exact (List.getElem_eq_getD 0).symm

end Bytes

namespace Cursor

/-! ### Accesses -/

/-- One way to go on in a payload. -/
inductive Access where
  | byte
  | half
  | word
  | long
  | bytes (count : Nat)
  | skip (count : Nat)
  | array (count : Nat)
  deriving DecidableEq, Repr

namespace Access

/-- How many bytes an access goes on by. -/
def size : Access → Nat
  | byte => 1
  | half => 2
  | word => 4
  | long => 8
  | bytes count => count
  | skip count => count
  | array count => count

/-- What an access gives. -/
abbrev Value : Access → Type
  | byte => UInt8
  | half => UInt16
  | word => UInt32
  | long => UInt64
  | bytes _ => Bytes
  | skip _ => Unit
  | array count => Vector UInt8 count

def reading : (access : Access) → Reading access.Value
  | byte => Cursor.byte
  | half => Cursor.half
  | word => Cursor.word
  | long => Cursor.long
  | bytes count => Cursor.bytes count
  | skip count => Cursor.skip count
  | array count => Cursor.array count

/-- Writes back what an access gave, a number from its lowest byte on. What was skipped is lost, so
the bytes in its place are `passed`. -/
def write (passed : Bytes) : (access : Access) → access.Value → Bytes
  | byte, value => Bytes.ofNat 1 value.toNat
  | half, value => Bytes.ofNat 2 value.toNat
  | word, value => Bytes.ofNat 4 value.toNat
  | long, value => Bytes.ofNat 8 value.toNat
  | bytes _, taken => taken
  | skip _, _ => passed
  | array _, values => values.toList

end Access

/-- An access, the positions before and after it, and what came of it. -/
structure Move where
  access : Access
  before : Nat
  outcome : Except DecodeError access.Value
  after : Nat

namespace Move

def Succeeds (move : Move) : Prop :=
  ∃ value, move.outcome = .ok value

def Fails (move : Move) : Prop :=
  ∃ cause, move.outcome = .error cause

/-- The bytes of `payload` that the access would go over. -/
def passed (payload : Bytes) (move : Move) : Bytes :=
  (payload.drop move.before).take move.access.size

/-- What the access took, written back; nothing if it failed. -/
def written (payload : Bytes) (move : Move) : Bytes :=
  match move.outcome with
  | .ok value => move.access.write (move.passed payload) value
  | .error _ => []

end Move

/-- Makes accesses one after another, whatever comes of them. -/
def perform : List Access → Cursor → List Move × Cursor
  | [], cursor => ([], cursor)
  | access :: later, cursor =>
    let (outcome, moved) := access.reading.run cursor
    let (moves, last) := perform later moved
    (⟨access, cursor.position, outcome, moved.position⟩ :: moves, last)

/-! ### One access -/

/-- The cursor at `position` of `payload`. -/
def reached (payload : Bytes) (position : Nat) : Cursor :=
  ⟨position, payload.drop position⟩

/-- Where enough bytes remain an access takes the next ones. -/
theorem Access.exists_run_of_le (access : Access) {rest : Bytes}
    (enough : access.size ≤ rest.length) (position : Nat) :
    ∃ value, access.reading.run ⟨position, rest⟩ =
        (.ok value, ⟨position + access.size, rest.drop access.size⟩) ∧
      access.write (rest.take access.size) value = rest.take access.size := by
  have whole := List.length_take_of_le enough
  have small := Bytes.toNat_lt_of_length whole
  have back := Bytes.ofNat_toNat_of_length whole
  have taken := run_bytes_of_le enough position
  have number := Reading.run_bind_of_ok taken fun bytes => pure (Bytes.toNat bytes)
  -- So few bytes make a number that its word holds, and the word has these bytes again.
  cases access with
  | byte =>
    refine ⟨_, Reading.run_bind_of_ok number _, ?_⟩
    rwa [write, UInt8.toNat_ofNat_of_lt' small]
  | half =>
    refine ⟨_, Reading.run_bind_of_ok number _, ?_⟩
    rwa [write, UInt16.toNat_ofNat_of_lt' small]
  | word =>
    refine ⟨_, Reading.run_bind_of_ok number _, ?_⟩
    rwa [write, UInt32.toNat_ofNat_of_lt' small]
  | long =>
    refine ⟨_, Reading.run_bind_of_ok number _, ?_⟩
    rwa [write, UInt64.toNat_ofNat_of_lt' small]
  | bytes count => exact ⟨_, taken, rfl⟩
  | skip count => exact ⟨(), Reading.run_bind_of_ok taken _, rfl⟩
  | array count => exact ⟨_, Reading.run_bind_of_ok taken _, Bytes.toList_ofFn_getD whole⟩

/-- Where too few bytes remain an access stays. -/
theorem Access.run_of_lt (access : Access) {rest : Bytes} (few : rest.length < access.size)
    (position : Nat) :
    access.reading.run ⟨position, rest⟩ =
      (.error (.shortBuffer (position + access.size) (position + rest.length)),
        ⟨position, rest⟩) := by
  have fails := run_bytes_of_lt few position
  cases access with
  | byte | half | word | long =>
    exact Reading.run_bind_of_error (Reading.run_bind_of_error fails _) _
  | bytes count => exact fails
  | skip count | array count => exact Reading.run_bind_of_error fails _

theorem Access.eq_of_error {access : Access} {cursor moved : Cursor} {cause : DecodeError}
    (fails : access.reading.run cursor = (.error cause, moved)) : cursor = moved := by
  rcases Nat.lt_or_ge cursor.rest.length access.size with few | enough
  · cases (access.run_of_lt few cursor.position).symm.trans fails
    rfl
  · obtain ⟨value, ran, _⟩ := access.exists_run_of_le enough cursor.position
    cases ran.symm.trans fails

/-- What every move in `payload` keeps to. It succeeds exactly if enough bytes remain; then it goes
behind the bytes that it took, and otherwise it stays and says how far it would have gone. -/
structure Move.Keeps (payload : Bytes) (move : Move) : Prop where
  before_le : move.before ≤ payload.length
  after_le : move.after ≤ payload.length
  succeeds_iff : move.Succeeds ↔ move.before + move.access.size ≤ payload.length
  taken : ∀ value, move.outcome = .ok value →
    move.after = move.before + move.access.size ∧
      move.access.write (move.passed payload) value = move.passed payload
  failed : ∀ cause, move.outcome = .error cause →
    move.after = move.before ∧
      cause = .shortBuffer (move.before + move.access.size) payload.length

theorem Access.exists_move (access : Access) {payload : Bytes} {position : Nat}
    (inside : position ≤ payload.length) :
    ∃ outcome after, access.reading.run (reached payload position) =
        (outcome, reached payload after) ∧
      Move.Keeps payload ⟨access, position, outcome, after⟩ := by
  have remain : position + (payload.drop position).length = payload.length := by
    rw [List.length_drop]
    omega
  rcases Nat.lt_or_ge (payload.drop position).length access.size with few | enough
  · have ran := access.run_of_lt few position
    rw [remain] at ran
    have beyond : payload.length < position + access.size := by omega
    refine ⟨_, position, ran, inside, inside, ?_, nofun, ?_⟩
    · exact iff_of_false nofun (Nat.not_le.mpr beyond)
    · rintro cause same
      cases same
      exact ⟨rfl, rfl⟩
  · obtain ⟨value, ran, written⟩ := access.exists_run_of_le enough position
    rw [List.drop_drop] at ran
    have fits : position + access.size ≤ payload.length := by omega
    refine ⟨.ok value, _, ran, inside, fits, iff_of_true ⟨value, rfl⟩ fits, ?_, nofun⟩
    rintro other same
    cases same
    exact ⟨rfl, written⟩

/-- Up to a move and what it wrote is up to behind it. -/
theorem Move.Keeps.take_written {payload : Bytes} {move : Move} (keeps : move.Keeps payload) :
    payload.take move.before ++ move.written payload = payload.take move.after := by
  rw [written]
  split
  next value ok =>
    obtain ⟨after, same⟩ := keeps.taken value ok
    rw [same, after, passed, List.take_add]
  next cause error =>
    rw [(keeps.failed cause error).1, List.append_nil]

/-! ### Accesses one after another -/

theorem perform_cons {access : Access} {cursor moved : Cursor}
    {outcome : Except DecodeError access.Value}
    (ran : access.reading.run cursor = (outcome, moved)) (later : List Access) :
    perform (access :: later) cursor =
      (⟨access, cursor.position, outcome, moved.position⟩ :: (perform later moved).1,
        (perform later moved).2) := by
  rw [perform, ran]

/-- The moves that were made from one position of `payload` to another, for some accesses. -/
structure Moves (payload : Bytes) (accesses : List Access) (position : Nat) (moves : List Move)
    (last : Nat) : Prop where
  made : moves.map Move.access = accesses
  last_le : last ≤ payload.length
  keeps : ∀ move ∈ moves, move.Keeps payload
  written : payload.take position ++ moves.flatMap (Move.written payload) = payload.take last

theorem exists_moves (payload : Bytes) (accesses : List Access) {position : Nat}
    (inside : position ≤ payload.length) :
    ∃ moves last, perform accesses (reached payload position) = (moves, reached payload last) ∧
      Moves payload accesses position moves last := by
  induction accesses generalizing position with
  | nil => exact ⟨[], position, rfl, rfl, inside, nofun, List.append_nil _⟩
  | cons access later inductionHypothesis =>
    obtain ⟨outcome, after, ran, keeps⟩ := access.exists_move inside
    obtain ⟨moves, last, performed, sound⟩ := inductionHypothesis keeps.after_le
    refine ⟨⟨access, position, outcome, after⟩ :: moves, last, ?_, ?_, sound.last_le, ?_, ?_⟩
    · rw [perform_cons ran, performed]
      rfl
    · rw [List.map_cons, sound.made]
    · exact List.forall_mem_cons.mpr ⟨keeps, sound.keeps⟩
    · rw [List.flatMap_cons, ← List.append_assoc, keeps.take_written]
      exact sound.written

/-- A failed access leaves the cursor as a whole alone, so the others do not notice it. -/
theorem perform_eraseIdx {accesses : List Access} {cursor last : Cursor} {moves : List Move}
    (performed : perform accesses cursor = (moves, last)) {index : Nat} {move : Move}
    (made : moves[index]? = some move) (fails : move.Fails) :
    perform (accesses.eraseIdx index) cursor = (moves.eraseIdx index, last) := by
  induction accesses generalizing cursor moves index with
  | nil =>
    cases performed
    cases made
  | cons access later inductionHypothesis =>
    rcases ran : access.reading.run cursor with ⟨outcome, moved⟩
    rw [perform_cons ran] at performed
    cases performed
    cases index with
    | zero =>
      -- The failed access leaves the cursor to the later ones as it found it.
      cases made
      obtain ⟨cause, failed⟩ := fails
      obtain rfl := Access.eq_of_error (ran.trans (congrArg (Prod.mk · moved) failed))
      rfl
    | succ index =>
      rw [List.eraseIdx_cons_succ, perform_cons ran, inductionHypothesis rfl made]
      rfl

/-- Whatever accesses are made from the start of a payload, each has its move, which keeps to the
payload: the cursor never leaves it, an access succeeds exactly if enough bytes remain, and a failed
one says what it needed of what there is and stays. All that was taken, written back in order, is
the payload up to the last position, and without a failed access all other moves are the same. -/
theorem perform_accounts_for_payload (payload : Bytes) (accesses : List Access) :
    ∃ moves last, perform accesses (start payload) = (moves, reached payload last) ∧
      moves.map Move.access = accesses ∧
      last ≤ payload.length ∧
      (∀ move ∈ moves, move.Keeps payload) ∧
      moves.flatMap (Move.written payload) = payload.take last ∧
      ∀ index move, moves[index]? = some move → move.Fails →
        perform (accesses.eraseIdx index) (start payload) =
          (moves.eraseIdx index, reached payload last) := by
  obtain ⟨moves, last, performed, sound⟩ := exists_moves payload accesses (Nat.zero_le _)
  refine ⟨moves, last, performed, sound.made, sound.last_le, sound.keeps, sound.written, ?_⟩
  intro index move made fails
  exact perform_eraseIdx performed made fails

example : perform [.byte, .byte, .byte, .word, .half] (start [1, 2, 0, 3, 0, 0, 0, 4]) =
    ([⟨.byte, 0, .ok 1, 1⟩, ⟨.byte, 1, .ok 2, 2⟩, ⟨.byte, 2, .ok 0, 3⟩, ⟨.word, 3, .ok 3, 7⟩,
      ⟨.half, 7, .error (.shortBuffer 9 8), 7⟩], ⟨7, [4]⟩) := by
  rfl

end Cursor

end NicScope
