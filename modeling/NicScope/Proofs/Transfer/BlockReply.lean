/-
This file says what one reply means to a reader of blocks. A reply opens when it
was delivered and its head can be read; it fits into some room when it opens, the
size it declares exceeds neither that room nor what a block can carry, and that
many bytes really follow the head. Its payload is those bytes, and its head
announces the number of blocks, the next entry and the count of entries. A reply
that does not fit is refused for exactly one reason. The reader of blocks takes a
reply apart in just this way, and a head laid out in front of a block, with
anything behind both, is a reply that carries the block.
-/

import NicScope.Proofs.Wire.ReadBack
import NicScope.Transfer.Blocks

namespace NicScope

variable (η : Type) [BlockHead η]

/-! ### Opening a reply -/

/-- The head of a reply and what follows it. -/
def opened? (reply : Reply) : Option (η × Bytes) :=
  match reply with
  | .error _ => none
  | .ok response => (decodeHead η response.bytes).toOption

/-- The bytes that a head declares. -/
def declaredSize (head : η) : Nat :=
  (BlockHead.blockSize head).toNat

/-- The bytes that a reply declares, as far as they follow its head. -/
def payloadOf (reply : Reply) : Bytes :=
  match opened? η reply with
  | none => []
  | some (head, rest) => rest.take (declaredSize η head)

/-- The number of blocks that a reply announces. -/
def announcedBlocks (reply : Reply) : Nat :=
  match opened? η reply with
  | none => 0
  | some (head, _) => (BlockHead.totalBlocks head).toNat

/-- The entry that a reply names as the next one to ask for. -/
def nextNamed (reply : Reply) : UInt32 :=
  match opened? η reply with
  | none => 0
  | some (head, _) => BlockHead.nextEntry head

/-- The number of entries that a reply counts. -/
def entriesCounted (reply : Reply) : UInt32 :=
  match opened? η reply with
  | none => 0
  | some (head, _) => BlockHead.entryCount head

/-- A reply that can be opened, declares at most `room` bytes and at most what a block
can carry, and carries what it declares. -/
def Fits (room : Nat) (reply : Reply) : Prop :=
  ∃ head rest, opened? η reply = some (head, rest) ∧ declaredSize η head ≤ room ∧
    declaredSize η head ≤ BlockHead.maxBlockSize η ∧ declaredSize η head ≤ rest.length

/-- Why a reply is refused where `room` bytes are left. -/
inductive Refused (name : String) (room : Nat) : Reply → Error → Prop
  | unfetched (cause : Error) : Refused name room (.error cause) cause
  | unreadable {response : Response} {cause : WireError}
      (headless : decodeHead η response.bytes = .error cause) :
      Refused name room (.ok response) (.wire cause)
  | oversized {response : Response} {head : η} {rest : Bytes}
      (opens : decodeHead η response.bytes = .ok (head, rest))
      (exceeds : room < declaredSize η head ∨ BlockHead.maxBlockSize η < declaredSize η head) :
      Refused name room (.ok response)
        (.blockTooLarge name room (BlockHead.maxBlockSize η) (declaredSize η head))
  | truncated {response : Response} {head : η} {rest : Bytes}
      (opens : decodeHead η response.bytes = .ok (head, rest))
      (inRoom : declaredSize η head ≤ room)
      (inBlock : declaredSize η head ≤ BlockHead.maxBlockSize η)
      (short : rest.length < declaredSize η head) :
      Refused name room (.ok response)
        (.wire (.responseTooShort (UInt32.ofNat response.bytes.length)))

variable {η}

theorem opened?_of_decodeHead {response : Response} {head : η} {rest : Bytes}
    (opens : decodeHead η response.bytes = .ok (head, rest)) :
    opened? η (.ok response) = some (head, rest) := by
  rw [opened?, opens]
  rfl

theorem decodeHead_of_opened? {reply : Reply} {head : η} {rest : Bytes}
    (opens : opened? η reply = some (head, rest)) :
    ∃ response, reply = .ok response ∧ decodeHead η response.bytes = .ok (head, rest) := by
  cases reply with
  | error cause => cases opens
  | ok response =>
    refine ⟨response, rfl, ?_⟩
    cases decoded : decodeHead η response.bytes with
    | error cause => rw [opened?, decoded] at opens; cases opens
    | ok parts =>
      rw [opened?, decoded] at opens
      exact congrArg Except.ok (Option.some.inj opens)

theorem payloadOf_of_opened? {reply : Reply} {head : η} {rest : Bytes}
    (opens : opened? η reply = some (head, rest)) :
    payloadOf η reply = rest.take (declaredSize η head) := by
  rw [payloadOf, opens]

theorem announcedBlocks_of_opened? {reply : Reply} {head : η} {rest : Bytes}
    (opens : opened? η reply = some (head, rest)) :
    announcedBlocks η reply = (BlockHead.totalBlocks head).toNat := by
  rw [announcedBlocks, opens]

theorem nextNamed_of_opened? {reply : Reply} {head : η} {rest : Bytes}
    (opens : opened? η reply = some (head, rest)) :
    nextNamed η reply = BlockHead.nextEntry head := by
  rw [nextNamed, opens]

theorem entriesCounted_of_opened? {reply : Reply} {head : η} {rest : Bytes}
    (opens : opened? η reply = some (head, rest)) :
    entriesCounted η reply = BlockHead.entryCount head := by
  rw [entriesCounted, opens]

theorem announcedBlocks_le (reply : Reply) : announcedBlocks η reply ≤ 255 := by
  unfold announcedBlocks
  split
  · exact Nat.zero_le _
  · exact Nat.le_of_lt_succ (UInt8.toNat_lt _)

/-- What fits takes no more than the room there is. -/
theorem length_payloadOf_le {room : Nat} {reply : Reply} (fits : Fits η room reply) :
    (payloadOf η reply).length ≤ room := by
  obtain ⟨head, rest, opens, inRoom, _, _⟩ := fits
  rw [payloadOf_of_opened? opens, List.length_take]
  exact Nat.le_trans (Nat.min_le_left _ _) inRoom

/-! ### Taking a reply apart -/

/-- A reply that fits is split into its head and its payload. -/
theorem blockPayload_of_fits (name : String) {room : Nat} {reply : Reply}
    (fits : Fits η room reply) :
    ∃ head rest, opened? η reply = some (head, rest) ∧
      reply.bind (blockPayload η name room) = .ok (head, payloadOf η reply) := by
  obtain ⟨head, rest, opens, inRoom, inBlock, carried⟩ := fits
  refine ⟨head, rest, opens, ?_⟩
  obtain ⟨response, rfl, decoded⟩ := decodeHead_of_opened? opens
  have small : ¬ (declaredSize η head > room || declaredSize η head > BlockHead.maxBlockSize η)
      = true := by
    simp only [Bool.or_eq_true, decide_eq_true_eq]
    omega
  rw [payloadOf_of_opened? opens]
  simp only [Except.bind, blockPayload, decoded]
  rw [declaredSize] at small carried ⊢
  rw [if_neg small, if_neg (by omega)]

/-- A reply that is refused is turned into the error that says why. -/
theorem blockPayload_of_refused {name : String} {room : Nat} {reply : Reply} {cause : Error}
    (refused : Refused η name room reply cause) :
    reply.bind (blockPayload η name room) = .error cause := by
  cases refused with
  | unfetched => rfl
  | unreadable headless => simp only [Except.bind, blockPayload, headless]
  | oversized opens exceeds =>
    simp only [Except.bind, blockPayload, opens]
    rw [if_pos]
    · rfl
    · rw [declaredSize] at exceeds
      simp only [Bool.or_eq_true, decide_eq_true_eq]
      exact exceeds
  | truncated opens inRoom inBlock short =>
    simp only [Except.bind, blockPayload, opens]
    rw [declaredSize] at inRoom inBlock short
    rw [if_neg, if_pos short]
    simp only [Bool.or_eq_true, decide_eq_true_eq]
    omega

/-- Every reply fits or is refused. -/
theorem fits_or_refused (name : String) (room : Nat) (reply : Reply) :
    Fits η room reply ∨ ∃ cause, Refused η name room reply cause := by
  cases reply with
  | error cause => exact .inr ⟨cause, .unfetched cause⟩
  | ok response =>
    cases decoded : decodeHead η response.bytes with
    | error cause => exact .inr ⟨_, .unreadable decoded⟩
    | ok parts =>
      obtain ⟨head, rest⟩ := parts
      by_cases exceeds :
          room < declaredSize η head ∨ BlockHead.maxBlockSize η < declaredSize η head
      · exact .inr ⟨_, .oversized decoded exceeds⟩
      · rw [not_or, Nat.not_lt, Nat.not_lt] at exceeds
        by_cases short : rest.length < declaredSize η head
        · exact .inr ⟨_, .truncated decoded exceeds.1 exceeds.2 short⟩
        · exact .inl ⟨head, rest, opened?_of_decodeHead decoded, exceeds.1, exceeds.2,
            Nat.not_lt.mp short⟩

theorem not_refused_of_fits {name : String} {room : Nat} {reply : Reply}
    (fits : Fits η room reply) (cause : Error) : ¬ Refused η name room reply cause := by
  intro refused
  obtain ⟨head, rest, _, taken⟩ := blockPayload_of_fits name fits
  rw [blockPayload_of_refused refused] at taken
  cases taken

/-- There is only one reason to refuse a reply. -/
theorem Refused.unique {name : String} {room : Nat} {reply : Reply} {first second : Error}
    (one : Refused η name room reply first) (other : Refused η name room reply second) :
    first = second := by
  have same := blockPayload_of_refused one
  rw [blockPayload_of_refused other] at same
  exact (Except.error.inj same).symm

/-! ### Framing a block -/

variable (η)

/-- A delivered reply that consists of a head, laid out, with `block` behind it, whose size
the head declares, and then anything. -/
def CarriesBlock (block : Bytes) (reply : Reply) (head : η) : Prop :=
  ∃ response padding, reply = .ok response ∧
    response.bytes = Layout.bytes head ++ (block ++ padding) ∧
    declaredSize η head = block.length

variable {η}

theorem CarriesBlock.opened? [LawfulLayout η] {block : Bytes} {reply : Reply} {head : η}
    (carries : CarriesBlock η block reply head) :
    ∃ padding, opened? η reply = some (head, block ++ padding) := by
  obtain ⟨response, padding, rfl, bytes, _⟩ := carries
  exact ⟨padding, opened?_of_decodeHead (by rw [bytes, decodeHead_bytes])⟩

theorem CarriesBlock.payloadOf [LawfulLayout η] {block : Bytes} {reply : Reply} {head : η}
    (carries : CarriesBlock η block reply head) : payloadOf η reply = block := by
  obtain ⟨padding, opens⟩ := carries.opened?
  obtain ⟨_, _, _, _, size⟩ := carries
  rw [payloadOf_of_opened? opens, size, List.take_left]

theorem CarriesBlock.nextNamed [LawfulLayout η] {block : Bytes} {reply : Reply} {head : η}
    (carries : CarriesBlock η block reply head) :
    nextNamed η reply = BlockHead.nextEntry head := by
  obtain ⟨padding, opens⟩ := carries.opened?
  exact nextNamed_of_opened? opens

theorem CarriesBlock.entriesCounted [LawfulLayout η] {block : Bytes} {reply : Reply} {head : η}
    (carries : CarriesBlock η block reply head) :
    entriesCounted η reply = BlockHead.entryCount head := by
  obtain ⟨padding, opens⟩ := carries.opened?
  exact entriesCounted_of_opened? opens

/-- A block that is small enough fits. -/
theorem CarriesBlock.fits [LawfulLayout η] {block : Bytes} {reply : Reply} {head : η}
    (carries : CarriesBlock η block reply head) {room : Nat} (inRoom : block.length ≤ room)
    (inBlock : block.length ≤ BlockHead.maxBlockSize η) : Fits η room reply := by
  obtain ⟨padding, opens⟩ := carries.opened?
  obtain ⟨_, _, _, _, size⟩ := carries
  refine ⟨head, block ++ padding, opens, ?_, ?_, ?_⟩
  · rw [size]
    exact inRoom
  · rw [size]
    exact inBlock
  · rw [size, List.length_append]
    exact Nat.le_add_right _ _

end NicScope
