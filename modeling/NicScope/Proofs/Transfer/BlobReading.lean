/-
This file proves what reading a blob asks and gives, whatever the device answers.
A course of the reading is followed block by block: each reply either fits into
the room that the blocks before it leave, or ends the reading with the reason why
it is refused. From that the whole reading is described by its questions and
replies alone: blocks are asked for in order and no further than the first one
announces, never after a refused one, and the blob is what the blocks carry, one
after another. So a blob that is cut into blocks in any way comes back unchanged.
-/

import Mathlib.Data.List.Forall2
import NicScope.Proofs.Transfer.BlockReply
import NicScope.Proofs.Transfer.Transcript
import NicScope.Transfer.Fetch

namespace NicScope

open Dialogue

variable (η : Type) [BlockHead η]

/-! ### Blocks one after another -/

/-- What replies carry, one after another. -/
def carriedBy (replies : List Reply) : Bytes :=
  replies.flatMap (payloadOf η)

/-- What the replies before reply `k` leave of `room`. -/
def roomAt (room : Nat) (replies : List Reply) (k : Nat) : Nat :=
  room - (carriedBy η (replies.take k)).length

/-- Every reply fits into the room that those before it leave. -/
def AllFit (room : Nat) (replies : List Reply) : Prop :=
  ∀ k reply, replies[k]? = some reply → Fits η (roomAt η room replies k) reply

variable {η}

theorem carriedBy_cons (reply : Reply) (later : List Reply) :
    carriedBy η (reply :: later) = payloadOf η reply ++ carriedBy η later := rfl

theorem roomAt_cons_succ (room : Nat) (reply : Reply) (later : List Reply) (k : Nat) :
    roomAt η room (reply :: later) (k + 1) =
      roomAt η (room - (payloadOf η reply).length) later k := by
  rw [roomAt, roomAt, List.take_succ_cons, carriedBy_cons, List.length_append, Nat.sub_sub]

/-- Replies that fit take no more than the room there is. -/
theorem length_carriedBy_take_le {room : Nat} {replies : List Reply} (k : Nat)
    (fit : ∀ j reply, replies[j]? = some reply → j < k → Fits η (roomAt η room replies j) reply) :
    (carriedBy η (replies.take k)).length ≤ room := by
  induction k with
  | zero => exact Nat.zero_le _
  | succ k inductionHypothesis =>
    have before := inductionHypothesis fun j reply found earlier =>
      fit j reply found (Nat.lt_succ_of_lt earlier)
    rw [List.take_add_one]
    cases found : replies[k]? with
    | none => rwa [Option.toList_none, List.append_nil]
    | some reply =>
      have size := length_payloadOf_le (fit k reply found (Nat.lt_succ_self k))
      rw [roomAt] at size
      simp only [carriedBy, List.flatMap_append, List.length_append, Option.toList_some,
        List.flatMap_cons, List.flatMap_nil, List.append_nil] at size before ⊢
      omega

theorem length_carriedBy_le {room : Nat} {replies : List Reply} (fit : AllFit η room replies) :
    (carriedBy η replies).length ≤ room := by
  have bound := length_carriedBy_take_le replies.length
    fun j reply found _ => fit j reply found
  rwa [List.take_length] at bound

/-! ### Courses -/

variable (η)

/-- The courses that reading `count` blocks from `block` on can take behind the bytes
`kept`: the steps, each a question with its reply, and the result. -/
inductive BlockCourse (name : String) (capacity : Nat) :
    (count block : Nat) → (kept : Bytes) → List (UInt8 × Reply) → Except Error Bytes → Prop
  | finished (block : Nat) (kept : Bytes) :
      BlockCourse name capacity 0 block kept [] (.ok kept)
  | refused {count block : Nat} {kept : Bytes} {reply : Reply} {cause : Error}
      (reason : Refused η name (capacity - kept.length) reply cause) :
      BlockCourse name capacity (count + 1) block kept [(UInt8.ofNat block, reply)]
        (.error cause)
  | carried {count block : Nat} {kept : Bytes} {reply : Reply}
      {later : List (UInt8 × Reply)} {result : Except Error Bytes}
      (fits : Fits η (capacity - kept.length) reply)
      (rest : BlockCourse name capacity count (block + 1) (kept ++ payloadOf η reply) later
        result) :
      BlockCourse name capacity (count + 1) block kept ((UInt8.ofNat block, reply) :: later)
        result

variable {η} {name : String} {capacity count block : Nat} {kept : Bytes}
  {steps : List (UInt8 × Reply)} {result : Except Error Bytes}

namespace BlockCourse

theorem asked (course : BlockCourse η name capacity count block kept steps result) :
    steps.map Prod.fst = (List.range' block steps.length).map UInt8.ofNat := by
  induction course with
  | finished => rfl
  | refused => rfl
  | carried _ _ inductionHypothesis =>
    rw [List.map_cons, inductionHypothesis, List.length_cons, List.range'_succ, List.map_cons]

theorem length_le (course : BlockCourse η name capacity count block kept steps result) :
    steps.length ≤ count := by
  induction course with
  | finished => exact Nat.le_refl _
  | refused => exact Nat.succ_le_succ (Nat.zero_le _)
  | carried _ _ inductionHypothesis => exact Nat.succ_le_succ inductionHypothesis

/-- Only a reply that fits is followed by another question. -/
theorem continues (course : BlockCourse η name capacity count block kept steps result) :
    ∀ k reply, (steps.map Prod.snd)[k]? = some reply → k + 1 < steps.length →
      Fits η (roomAt η (capacity - kept.length) (steps.map Prod.snd) k) reply := by
  induction course with
  | finished => intro k reply found; cases found
  | refused => intro k reply _ more; exact absurd more (by simp)
  | @carried count block kept reply later result fits rest inductionHypothesis =>
    intro k other found more
    cases k with
    | zero => cases found; exact fits
    | succ k =>
      have fit := inductionHypothesis k other found (Nat.lt_of_succ_lt_succ more)
      rw [List.length_append, ← Nat.sub_sub] at fit
      rwa [List.map_cons, roomAt_cons_succ]

/-- A reading ends well, with all blocks that were to be read, or with a refused reply. -/
theorem outcome (course : BlockCourse η name capacity count block kept steps result) :
    (AllFit η (capacity - kept.length) (steps.map Prod.snd) ∧ steps.length = count ∧
        result = .ok (kept ++ carriedBy η (steps.map Prod.snd))) ∨
      ∃ k reply cause, (steps.map Prod.snd)[k]? = some reply ∧ k + 1 = steps.length ∧
        Refused η name (roomAt η (capacity - kept.length) (steps.map Prod.snd) k) reply cause ∧
        result = .error cause := by
  induction course with
  | finished block kept =>
    refine .inl ⟨?_, rfl, ?_⟩
    · intro k reply found
      cases found
    · rw [List.map_nil, carriedBy, List.flatMap_nil, List.append_nil]
  | refused reason => exact .inr ⟨0, _, _, rfl, rfl, reason, rfl⟩
  | @carried count block kept reply later result fits rest inductionHypothesis =>
    have shift (k : Nat) :
        roomAt η (capacity - kept.length) (reply :: later.map Prod.snd) (k + 1) =
          roomAt η (capacity - (kept ++ payloadOf η reply).length) (later.map Prod.snd) k := by
      rw [roomAt_cons_succ, List.length_append, Nat.sub_sub]
    rw [List.map_cons]
    rcases inductionHypothesis with
      ⟨allFit, length, ends⟩ | ⟨k, last, cause, found, length, refused, ends⟩
    · refine .inl ⟨?_, congrArg Nat.succ length, ?_⟩
      · intro k other found
        cases k with
        | zero => cases found; exact fits
        | succ k => rw [shift]; exact allFit k other found
      · rw [ends, carriedBy_cons, List.append_assoc]
    · refine .inr ⟨k + 1, last, cause, found, congrArg Nat.succ length, ?_, ends⟩
      rwa [shift]

/-- Where every reply fits, all blocks are read. -/
theorem length_of_allFit (course : BlockCourse η name capacity count block kept steps result)
    (allFit : AllFit η (capacity - kept.length) (steps.map Prod.snd)) : steps.length = count := by
  rcases course.outcome with ⟨_, all, _⟩ | ⟨k, reply, cause, found, _, refused, _⟩
  · exact all
  · exact absurd refused (not_refused_of_fits (allFit k reply found) cause)

theorem eq_ok_iff (course : BlockCourse η name capacity count block kept steps result)
    (blob : Bytes) :
    result = .ok blob ↔ AllFit η (capacity - kept.length) (steps.map Prod.snd) ∧
      blob = kept ++ carriedBy η (steps.map Prod.snd) := by
  rcases course.outcome with ⟨allFit, _, rfl⟩ | ⟨k, reply, cause, found, _, refused, rfl⟩
  · rw [Except.ok.injEq]
    exact ⟨fun same => ⟨allFit, same.symm⟩, fun both => both.2.symm⟩
  · constructor
    · intro given
      cases given
    · rintro ⟨allFit, _⟩
      exact absurd refused (not_refused_of_fits (allFit k reply found) cause)

theorem eq_error_iff (course : BlockCourse η name capacity count block kept steps result)
    (cause : Error) :
    result = .error cause ↔ ∃ k reply, (steps.map Prod.snd)[k]? = some reply ∧
      k + 1 = steps.length ∧
      Refused η name (roomAt η (capacity - kept.length) (steps.map Prod.snd) k) reply cause := by
  rcases course.outcome with ⟨allFit, _, rfl⟩ | ⟨k, reply, reason, found, last, refused, rfl⟩
  · constructor
    · intro failed
      cases failed
    · rintro ⟨k, reply, found, _, refused⟩
      exact absurd refused (not_refused_of_fits (allFit k reply found) cause)
  · constructor
    · intro same
      cases same
      exact ⟨k, reply, found, last, refused⟩
    · rintro ⟨k', reply', found', last', refused'⟩
      obtain rfl : k = k' := by omega
      obtain rfl := Option.some.inj (found.symm.trans found')
      rw [Refused.unique refused refused']

end BlockCourse

section Run

variable {σ : Type} (fetch : UInt8 → σ → Reply × σ) (log : LogRecord → σ → σ)

/-- However it is answered, reading on takes one of the courses. -/
theorem readBlocksFrom_course (count block : Nat) (kept : Bytes) (state : σ) :
    BlockCourse η name capacity count block kept
      ((readBlocksFrom η name capacity count block kept).transcript fetch log state)
      ((readBlocksFrom η name capacity count block kept).result fetch log state) := by
  induction count generalizing block kept state with
  | zero => exact .finished block kept
  | succ count inductionHypothesis =>
    rw [readBlocksFrom, transcript_ask, result_ask]
    rcases fits_or_refused (η := η) name (capacity - kept.length)
      (fetch (UInt8.ofNat block) state).1 with fits | ⟨cause, refused⟩
    · obtain ⟨head, rest, _, taken⟩ := blockPayload_of_fits name fits
      rw [taken]
      exact .carried fits (inductionHypothesis _ _ _)
    · rw [blockPayload_of_refused refused]
      exact .refused refused

/-- However it is answered, reading a blob takes the course of reading as many blocks as the
first reply announces, at least one; if it announces none the blob is empty. -/
theorem readBlocks_course (state : σ) :
    ∃ first later outcome,
      (readBlocks η name capacity).transcript fetch log state = (0, first) :: later ∧
      BlockCourse η name capacity (max 1 (announcedBlocks η first)) 0 []
        ((0, first) :: later) outcome ∧
      (readBlocks η name capacity).result fetch log state =
        if announcedBlocks η first = 0 then outcome.map fun _ => [] else outcome := by
  rw [readBlocks, transcript_ask, result_ask]
  generalize (fetch 0 state).1 = first
  generalize (fetch 0 state).2 = state
  rcases fits_or_refused (η := η) name capacity first with fits | ⟨cause, refused⟩
  · obtain ⟨head, rest, opens, taken⟩ := blockPayload_of_fits name fits
    rw [taken]
    have announced := announcedBlocks_of_opened? opens
    cases total : (BlockHead.totalBlocks head).toNat with
    | zero =>
      rw [total] at announced
      simp only [total]
      refine ⟨first, [], .ok (payloadOf η first), rfl, ?_, ?_⟩
      · rw [announced]
        exact .carried fits (.finished _ _)
      · rw [if_pos announced]
        rfl
    | succ count =>
      rw [total] at announced
      simp only [total]
      refine ⟨first, _,
        (readBlocksFrom η name capacity count 1 (payloadOf η first)).result fetch log state,
        rfl, ?_, ?_⟩
      · rw [announced, Nat.max_eq_right (Nat.succ_le_succ (Nat.zero_le _))]
        exact .carried fits
          (readBlocksFrom_course fetch log count 1 (payloadOf η first) state)
      · rw [if_neg (by omega)]
  · simp only [blockPayload_of_refused refused]
    refine ⟨first, [], .error cause, rfl, ?_, ?_⟩
    · obtain ⟨count, positive⟩ : ∃ count, max 1 (announcedBlocks η first) = count + 1 :=
        ⟨max 1 (announcedBlocks η first) - 1, by omega⟩
      rw [positive]
      exact .refused refused
    · split <;> rfl

end Run

/-! ### The whole reading -/

variable (η)

/-- The number of blocks that the first of some replies announces. -/
def blocksAnnounced : List Reply → Nat
  | [] => 0
  | first :: _ => announcedBlocks η first

/-- What reading a blob of at most `capacity` bytes asks and gives, told by its questions and
the replies to them. -/
structure BlobReading (name : String) (capacity : Nat) (asked : List UInt8)
    (replies : List Reply) (result : Except Error Bytes) : Prop where
  /-- Blocks are asked for by number, from 0 on. -/
  consecutive : asked.map UInt8.toNat = List.range replies.length
  begins : replies ≠ []
  bounded : replies.length ≤ max 1 (blocksAnnounced η replies)
  /-- Only a block that fits is followed by another question. -/
  continues : ∀ k reply, replies[k]? = some reply → k + 1 < replies.length →
    Fits η (roomAt η capacity replies k) reply
  /-- What is kept when a block is asked for is within the capacity, so that the room left is
  a difference of numbers and nothing is cut off. -/
  within : ∀ k, k < replies.length → (carriedBy η (replies.take k)).length ≤ capacity
  /-- The reading succeeds if and only if every block fits, and gives what they carry. -/
  succeeds : ∀ blob, result = .ok blob ↔ AllFit η capacity replies ∧
    blob = if blocksAnnounced η replies = 0 then [] else carriedBy η replies
  complete : AllFit η capacity replies → replies.length = max 1 (blocksAnnounced η replies)
  small : ∀ blob, result = .ok blob → blob.length ≤ capacity
  /-- The reading fails if and only if the last block is refused, and with that error. -/
  fails : ∀ cause, result = .error cause ↔ ∃ k reply, replies[k]? = some reply ∧
    k + 1 = replies.length ∧ Refused η name (roomAt η capacity replies k) reply cause
  /-- A block that declares too much ends the reading, and nothing else gives its error. -/
  oversized : ∀ k response head rest, replies[k]? = some (.ok response) →
    decodeHead η response.bytes = .ok (head, rest) →
    ((roomAt η capacity replies k < declaredSize η head ∨
        BlockHead.maxBlockSize η < declaredSize η head) ↔
      k + 1 = replies.length ∧ result = .error (.blockTooLarge name
        (roomAt η capacity replies k) (BlockHead.maxBlockSize η) (declaredSize η head)))
  /-- An error in place of a block ends the reading and is its error. -/
  unfetched : ∀ k cause, replies[k]? = some (.error cause) →
    k + 1 = replies.length ∧ result = .error cause

variable {η}

/-- Block numbers up to what a head can announce are not cut by their width. -/
theorem toNat_blockNumbers {count : Nat} (bound : count ≤ 255) :
    ((List.range count).map UInt8.ofNat).map UInt8.toNat = List.range count := by
  rw [List.map_map]
  refine (List.map_congr_left fun number member => ?_).trans (List.map_id _)
  have small := List.mem_range.mp member
  exact UInt8.toNat_ofNat_of_lt' (show number < 256 by omega)

section Emptied

variable {empty : Prop} [Decidable empty] {outcome : Except Error Bytes}

/-- The result of a reading whose bytes are not wanted where none are announced. -/
theorem emptied_eq_ok_iff (blob : Bytes) :
    (if empty then outcome.map fun _ => [] else outcome) = .ok blob ↔
      ∃ carried, outcome = .ok carried ∧ blob = if empty then [] else carried := by
  cases outcome with
  | error cause => split <;> simp [Except.map]
  | ok carried => split <;> simp [Except.map, eq_comm]

theorem emptied_eq_error_iff (cause : Error) :
    (if empty then outcome.map fun _ => [] else outcome) = .error cause ↔
      outcome = .error cause := by
  cases outcome with
  | error reason => split <;> simp [Except.map]
  | ok carried => split <;> simp [Except.map]

end Emptied

/-- A refused reply is the last one, and its refusal the result, where only fitting replies
are followed by others and the last refusal is the result. -/
theorem ends_of_refused {name : String} {room : Nat} {replies : List Reply}
    {result : Except Error Bytes}
    (continues : ∀ k reply, replies[k]? = some reply → k + 1 < replies.length →
      Fits η (roomAt η room replies k) reply)
    (fails : ∀ cause, result = .error cause ↔ ∃ k reply, replies[k]? = some reply ∧
      k + 1 = replies.length ∧ Refused η name (roomAt η room replies k) reply cause)
    {k : Nat} {reply : Reply} {cause : Error} (found : replies[k]? = some reply)
    (refused : Refused η name (roomAt η room replies k) reply cause) :
    k + 1 = replies.length ∧ result = .error cause := by
  have inside := (List.getElem?_eq_some_iff.mp found).1
  have last : k + 1 = replies.length := by
    by_contra more
    exact not_refused_of_fits (continues k reply found (by omega)) cause refused
  exact ⟨last, (fails cause).mpr ⟨k, reply, found, last, refused⟩⟩

/-- A reply that opens and is refused for its size declares too much. -/
theorem exceeds_of_refused {name other : String} {room destination source size : Nat}
    {response : Response} {head : η} {rest : Bytes}
    (opens : decodeHead η response.bytes = .ok (head, rest))
    (refused : Refused η name room (.ok response)
      (.blockTooLarge other destination source size)) :
    room < declaredSize η head ∨ BlockHead.maxBlockSize η < declaredSize η head := by
  by_contra within
  rw [not_or, Nat.not_lt, Nat.not_lt] at within
  by_cases short : rest.length < declaredSize η head
  · have same := refused.unique (.truncated opens within.1 within.2 short)
    cases same
  · exact not_refused_of_fits
      ⟨head, rest, opened?_of_decodeHead opens, within.1, within.2, Nat.not_lt.mp short⟩ _ refused

/-- A course of as many blocks as are announced is such a reading. -/
theorem blobReading_of_course {name : String} {capacity : Nat} {first : Reply}
    {later : List (UInt8 × Reply)} {outcome result : Except Error Bytes}
    (course : BlockCourse η name capacity (max 1 (announcedBlocks η first)) 0 []
      ((0, first) :: later) outcome)
    (ends : result = if announcedBlocks η first = 0 then outcome.map fun _ => [] else outcome) :
    BlobReading η name capacity (((0, first) :: later).map Prod.fst)
      (((0, first) :: later).map Prod.snd) result := by
  have asked := course.asked
  have bound := course.length_le
  have continues := course.continues
  have all := course.length_of_allFit
  have ok := course.eq_ok_iff
  have error := course.eq_error_iff
  have limit := announcedBlocks_le (η := η) first
  have length : (((0, first) :: later).map Prod.snd).length = ((0, first) :: later).length :=
    List.length_map _
  have announced : blocksAnnounced η (((0, first) :: later).map Prod.snd) =
      announcedBlocks η first := rfl
  have nonempty : ((0, first) :: later).map Prod.snd ≠ [] := List.cons_ne_nil _ _
  generalize ((0, first) :: later).map Prod.snd = replies at *
  rw [← length] at asked bound continues all error
  rw [← announced] at bound all ends limit
  have fails : ∀ cause, result = .error cause ↔ ∃ k reply, replies[k]? = some reply ∧
      k + 1 = replies.length ∧ Refused η name (roomAt η capacity replies k) reply cause := by
    intro cause
    rw [ends, emptied_eq_error_iff, error]
    rfl
  have succeeds : ∀ blob, result = .ok blob ↔ AllFit η capacity replies ∧
      blob = if blocksAnnounced η replies = 0 then [] else carriedBy η replies := by
    intro blob
    rw [ends, emptied_eq_ok_iff]
    constructor
    · rintro ⟨carried, given, rfl⟩
      obtain ⟨allFit, rfl⟩ := (ok carried).mp given
      exact ⟨allFit, rfl⟩
    · rintro ⟨allFit, rfl⟩
      exact ⟨carriedBy η replies, (ok _).mpr ⟨allFit, rfl⟩, rfl⟩
  exact {
    consecutive := by
      rw [asked, ← List.range_eq_range', toNat_blockNumbers (by omega)]
    begins := nonempty
    bounded := bound
    continues := continues
    within := fun k inside => length_carriedBy_take_le k fun j reply found earlier =>
      continues j reply found (by omega)
    succeeds := succeeds
    complete := all
    small := fun blob given => by
      obtain ⟨allFit, rfl⟩ := (succeeds blob).mp given
      split
      · exact Nat.zero_le _
      · exact length_carriedBy_le allFit
    fails := fails
    oversized := fun k response head rest found opens => by
      constructor
      · exact fun exceeds => ends_of_refused continues fails found (.oversized opens exceeds)
      · rintro ⟨last, failed⟩
        obtain ⟨k', reply, found', last', refused⟩ := (fails _).mp failed
        obtain rfl : k = k' := by omega
        obtain rfl := Option.some.inj (found.symm.trans found')
        exact exceeds_of_refused opens refused
    unfetched := fun k cause found => ends_of_refused continues fails found (.unfetched cause) }

end NicScope
