/-
This file proves that a blob survives being split. However it is cut into blocks
that a head can frame, reading them back gives the blob, and fetching it over a
channel gives the blob filled up with zeroes. Together with the description of
every reading this settles what reading a blob does against any device.
-/

import NicScope.Proofs.Transfer.BlobReading
import NicScope.Transfer.Scripted

namespace NicScope

open Dialogue

variable (η : Type) [BlockHead η]

/-! ### Framed blocks -/

/-- A reply that carries `block` behind a head that announces `total` blocks. -/
def Frames (total : Nat) (block : Bytes) (reply : Reply) : Prop :=
  ∃ head, CarriesBlock η block reply head ∧ (BlockHead.totalBlocks head).toNat = total

/-- The numbers of `count` blocks, from 0 on. -/
def blockNumbers (count : Nat) : List UInt8 :=
  (List.range' 0 count).map UInt8.ofNat

/-- A reply in which the device reports success. -/
def Succeeded (reply : Reply) : Prop :=
  ∃ response, reply = .ok response ∧ response.status = 0

variable {η} {σ ρ : Type}

theorem Succeeded.check {reply : Reply} (succeeded : Succeeded reply) :
    reply.bind Response.check = reply := by
  obtain ⟨response, rfl, status⟩ := succeeded
  exact if_pos status

/-! ### Reading them back -/

section Run

variable [LawfulLayout η] {name : String} {capacity : Nat}
  (fetch : UInt8 → σ → Reply × σ) (log : LogRecord → σ → σ)

/-- Blocks are put behind what was kept before them, one after another. -/
theorem readBlocksFrom_of_frames (total : Nat) (blocks : List Bytes) (block : Nat) (kept : Bytes)
    (state : σ)
    (small : ∀ block ∈ blocks, block.length ≤ BlockHead.maxBlockSize η)
    (room : kept.length + blocks.flatten.length ≤ capacity)
    (framed : List.Forall₂ (Frames η total) blocks
      (answersTo fetch ((List.range' block blocks.length).map UInt8.ofNat) state)) :
    (readBlocksFrom η name capacity blocks.length block kept).result fetch log state =
      .ok (kept ++ blocks.flatten) := by
  induction blocks generalizing block kept state with
  | nil => exact congrArg Except.ok (List.append_nil kept).symm
  | cons payload rest inductionHypothesis =>
    rw [List.length_cons, List.range'_succ, List.map_cons, answersTo] at framed
    obtain ⟨⟨head, carries, _⟩, framedRest⟩ := List.forall₂_cons.mp framed
    rw [List.flatten_cons, List.length_append] at room
    have fits : Fits η (capacity - kept.length) (fetch (UInt8.ofNat block) state).1 :=
      carries.fits (by omega) (small payload List.mem_cons_self)
    obtain ⟨opened, behind, _, taken⟩ := blockPayload_of_fits name fits
    rw [List.length_cons, readBlocksFrom, result_ask]
    simp only [taken, carries.payloadOf]
    rw [inductionHypothesis (block + 1) (kept ++ payload) _
      (fun other member => small other (List.mem_cons_of_mem _ member))
      (by rw [List.length_append]; omega) framedRest,
      List.flatten_cons, List.append_assoc]

/-- A blob that is cut into framed blocks is read back. -/
theorem readBlocks_of_frames (blocks : List Bytes) (nonempty : blocks ≠ []) (state : σ)
    (small : ∀ block ∈ blocks, block.length ≤ BlockHead.maxBlockSize η)
    (room : blocks.flatten.length ≤ capacity)
    (framed : List.Forall₂ (Frames η blocks.length) blocks
      (answersTo fetch (blockNumbers blocks.length) state)) :
    (readBlocks η name capacity).result fetch log state = .ok blocks.flatten := by
  cases blocks with
  | nil => exact absurd rfl nonempty
  | cons payload rest =>
    have zero : UInt8.ofNat 0 = 0 := rfl
    rw [blockNumbers, List.length_cons, List.range'_succ, List.map_cons, zero, answersTo] at framed
    obtain ⟨⟨head, carries, total⟩, framedRest⟩ := List.forall₂_cons.mp framed
    rw [List.flatten_cons, List.length_append] at room
    have fits : Fits η capacity (fetch 0 state).1 :=
      carries.fits (by omega) (small payload List.mem_cons_self)
    obtain ⟨opened, behind, opens, taken⟩ := blockPayload_of_fits name fits
    obtain ⟨padding, opensHead⟩ := carries.opened?
    obtain rfl : opened = head := (Prod.mk.inj (Option.some.inj (opens.symm.trans opensHead))).1
    rw [readBlocks, result_ask]
    simp only [taken, total, carries.payloadOf]
    exact readBlocksFrom_of_frames fetch log _ rest 1 payload _
      (fun other member => small other (List.mem_cons_of_mem _ member)) room framedRest

end Run

/-! ### Fetching a blob -/

section Fetch

variable [Layout ρ] {name : String} {capacity : Nat} {header : Header} {request : UInt8 → ρ}
  (channel : Query → σ → Reply × σ) (log : LogRecord → σ → σ)

/-- A blob is fetched by reading blocks, each of which is a query of its own. -/
theorem result_blob (state : σ) :
    (Fetch.blob η name header capacity request).run.result channel log state =
      ((readBlocks η name capacity).result
        (fun index => (Fetch.block header request index).run channel log) log state).map
          (Bytes.resize capacity) := by
  change (((readBlocks η name capacity).reword (Fetch.block header request)).bind _).result
    channel log state = _
  rw [result_bind, result_reword]
  rfl

/-- One block is fetched by one query. -/
theorem run_block {words : List UInt32} {index : UInt8}
    (encoded : Request.encode (request index) = .ok words) (state : σ) :
    (Fetch.block header request index).run channel log state =
      (((channel ⟨header, words⟩ state).1.bind Response.check).mapError
        (.blockFailed index.toUInt32), (channel ⟨header, words⟩ state).2) := by
  rw [Request.encode] at encoded
  rw [Fetch.block, query, queryFields, encoded]
  rfl

/-- Queries that succeed fetch what the channel delivers. -/
theorem answersTo_block {words : UInt8 → List UInt32}
    (encoded : ∀ index, Request.encode (request index) = .ok (words index))
    (indices : List UInt8) (state : σ)
    (succeeded : ∀ reply ∈ answersTo channel
      (indices.map fun index => ⟨header, words index⟩) state, Succeeded reply) :
    answersTo (fun index => (Fetch.block header request index).run channel log) indices state =
      answersTo channel (indices.map fun index => ⟨header, words index⟩) state := by
  induction indices generalizing state with
  | nil => rfl
  | cons index later inductionHypothesis =>
    rw [List.map_cons, answersTo] at succeeded
    have first := succeeded _ List.mem_cons_self
    have delivered : (Fetch.block header request index).run channel log state =
        channel ⟨header, words index⟩ state := by
      rw [run_block channel log (encoded index), first.check]
      obtain ⟨response, given, _⟩ := first
      rw [given]
      exact congrArg (·, _) given.symm
    rw [List.map_cons, answersTo, answersTo, delivered, inductionHypothesis _
      fun reply member => succeeded reply (List.mem_cons_of_mem _ member)]

/-- A blob that is cut into framed blocks is fetched, and filled up with zeroes. -/
theorem blob_of_frames [LawfulLayout η] {words : UInt8 → List UInt32}
    (encoded : ∀ index, Request.encode (request index) = .ok (words index))
    (blocks : List Bytes) (nonempty : blocks ≠ []) (state : σ)
    (small : ∀ block ∈ blocks, block.length ≤ BlockHead.maxBlockSize η)
    (room : blocks.flatten.length ≤ capacity)
    (framed : List.Forall₂ (Frames η blocks.length) blocks (answersTo channel
      ((blockNumbers blocks.length).map fun index => ⟨header, words index⟩) state))
    (succeeded : ∀ reply ∈ answersTo channel
      ((blockNumbers blocks.length).map fun index => ⟨header, words index⟩) state,
      Succeeded reply) :
    (Fetch.blob η name header capacity request).run.result channel log state =
      .ok (blocks.flatten ++ List.replicate (capacity - blocks.flatten.length) 0) := by
  rw [← answersTo_block channel log encoded _ state succeeded] at framed
  rw [result_blob, readBlocks_of_frames _ log blocks nonempty state small room framed]
  rw [Except.map, Bytes.resize, List.take_of_length_le room]

end Fetch

/-! ### What reading a blob does -/

/-- Reading a blob is what its questions and replies make it, whoever replies; and a blob
within the capacity, cut into blocks in any way and framed, is read back and is fetched with
zeroes behind it. -/
theorem readBlocks_reference (η : Type) [BlockHead η] (name : String) (capacity : Nat) :
    (∀ {σ : Type} (fetch : UInt8 → σ → Reply × σ) (log : LogRecord → σ → σ) (state : σ),
      BlobReading η name capacity
        (((readBlocks η name capacity).transcript fetch log state).map Prod.fst)
        (((readBlocks η name capacity).transcript fetch log state).map Prod.snd)
        ((readBlocks η name capacity).result fetch log state)) ∧
    (∀ [LawfulLayout η] (blocks : List Bytes), blocks ≠ [] →
      (∀ block ∈ blocks, block.length ≤ BlockHead.maxBlockSize η) →
      blocks.flatten.length ≤ capacity →
      (∀ {σ : Type} (fetch : UInt8 → σ → Reply × σ) (log : LogRecord → σ → σ) (state : σ),
        List.Forall₂ (Frames η blocks.length) blocks
          (answersTo fetch (blockNumbers blocks.length) state) →
        (readBlocks η name capacity).result fetch log state = .ok blocks.flatten) ∧
      (∀ {σ ρ : Type} [Layout ρ] (header : Header) (request : UInt8 → ρ)
          (words : UInt8 → List UInt32) (channel : Query → σ → Reply × σ)
          (log : LogRecord → σ → σ) (state : σ),
        (∀ index, Request.encode (request index) = .ok (words index)) →
        List.Forall₂ (Frames η blocks.length) blocks (answersTo channel
          ((blockNumbers blocks.length).map fun index => ⟨header, words index⟩) state) →
        (∀ reply ∈ answersTo channel
          ((blockNumbers blocks.length).map fun index => ⟨header, words index⟩) state,
          Succeeded reply) →
        (Fetch.blob η name header capacity request).run.result channel log state =
          .ok (blocks.flatten ++ List.replicate (capacity - blocks.flatten.length) 0))) := by
  constructor
  · intro σ fetch log state
    obtain ⟨first, later, outcome, steps, course, ends⟩ :=
      @readBlocks_course η _ name capacity σ fetch log state
    rw [steps]
    exact blobReading_of_course course ends
  · intro lawful blocks nonempty small room
    constructor
    · intro σ fetch log state framed
      exact readBlocks_of_frames fetch log blocks nonempty state small room framed
    · intro σ ρ layout header request words channel log state encoded framed succeeded
      exact blob_of_frames channel log encoded blocks nonempty state small room framed succeeded

/-- Two framed blocks, of three bytes and of one. -/
def twoBlocks : List Reply :=
  [.ok ⟨0, 0, [0x00000302, 0x00030201]⟩, .ok ⟨0, 0, [0x00000102, 0x00000004]⟩]

theorem frames_twoBlocks :
    List.Forall₂ (Frames PlainHead 2) [[1, 2, 3], [4]] twoBlocks :=
  .cons ⟨⟨2, 3, 0⟩, ⟨_, [0], rfl, by decide, rfl⟩, rfl⟩
    (.cons ⟨⟨2, 1, 0⟩, ⟨_, [0, 0, 0], rfl, by decide, rfl⟩, rfl⟩ .nil)

theorem readBlocks_twoBlocks :
    BlobReading PlainHead "nic_rss" 6 [0, 1] twoBlocks (.ok [1, 2, 3, 4]) ∧
    (readBlocks PlainHead "nic_rss" 6).result ScriptedReplies.answer (fun _ script => script)
      ⟨twoBlocks, []⟩ = .ok [1, 2, 3, 4] ∧
    (Fetch.blob PlainHead "nic_rss" (.ofNic .rss 1) 6
      (fun block => (⟨.zero, block, #v[0, 0, 0]⟩ : ScalingRequest))).run.result
      ScriptedReplies.answer (fun _ script => script) ⟨twoBlocks, []⟩ =
        .ok [1, 2, 3, 4, 0, 0] := by
  obtain ⟨every, split⟩ := readBlocks_reference PlainHead "nic_rss" 6
  obtain ⟨read, fetched⟩ := split [[1, 2, 3], [4]] (by decide) (by decide) (by decide)
  refine ⟨every ScriptedReplies.answer (fun _ script => script) ⟨twoBlocks, []⟩,
    read ScriptedReplies.answer _ _ frames_twoBlocks, ?_⟩
  refine fetched _ _ (fun block => Bytes.toWords
    (Layout.bytes (⟨.zero, block, #v[0, 0, 0]⟩ : ScalingRequest))) ScriptedReplies.answer _ _
    (fun _ => Request.encode_of_le _ (Nat.le_of_ble_eq_true rfl)) frames_twoBlocks ?_
  intro reply member
  rcases List.mem_cons.mp member with rfl | member
  · exact ⟨_, rfl, rfl⟩
  · exact ⟨_, List.mem_singleton.mp member, rfl⟩

end NicScope
