/-
This file proves which truncated records are refused. A parser walks over the fields and the gaps of
its record, so it refuses exactly the payloads that are shorter than all of them together, each as
too short. For thirteen of the records that is their size. The sizes of a port and a traffic class
declare four and three bytes more than are walked over, so without these they are accepted.
-/

import NicScope.Proofs.Tables.SizedRecords

namespace NicScope

variable {α : Type}

theorem Walks.parse_of_lt {width : Nat} {reading : Reading α} (walks : Walks width reading)
    {payload : Bytes} (few : payload.length < width) :
    ∃ need, payload.length < need ∧ need ≤ width ∧
      reading.parse payload = .error (.shortBuffer need payload.length) := by
  obtain ⟨need, stopped, fails, beyond, bound⟩ := walks.lacks 0 payload few
  rw [Nat.zero_add] at fails beyond bound
  exact ⟨need, beyond, bound, congrArg Prod.fst fails⟩

theorem Walks.parse_of_le {width : Nat} {reading : Reading α} (walks : Walks width reading)
    {payload : Bytes} (enough : width ≤ payload.length) :
    ∃ value, reading.parse payload = .ok value := by
  obtain ⟨value, parsed⟩ := walks.takes.parses enough
  exact ⟨value, List.append_nil payload ▸ parsed []⟩

/-- A payload that is shorter than the size of a record is refused as too short. -/
def RefusesTruncated (α : Type) [Record α] (payload : Bytes) : Prop :=
  payload.length < Record.size α →
    ∃ need available, Record.parse (α := α) payload = .error (.shortBuffer need available)

/-- What becomes of `payload` as a record whose fields and gaps are `width` bytes together: it is
refused exactly if it is shorter than these, and for no other reason. So a truncated record is
refused exactly if some of what it lacks is walked over. -/
structure RefusedBelow (α : Type) [Record α] (width : Nat) (payload : Bytes) : Prop where
  walked : ∃ reading : Reading α, Record.parse = reading.parse ∧ Walks width reading
  refused_iff : (∃ cause, Record.parse (α := α) payload = .error cause) ↔ payload.length < width
  tooShort : ∀ cause, Record.parse (α := α) payload = .error cause →
    ∃ need, cause = .shortBuffer need payload.length ∧ payload.length < need ∧ need ≤ width
  truncated_iff : RefusesTruncated α payload ↔
    (payload.length < Record.size α → payload.length < width)

theorem WalkedRecord.refusedBelow (α : Type) [Record α] {width : Nat} [WalkedRecord α width]
    (payload : Bytes) : RefusedBelow α width payload := by
  obtain ⟨reading, same, walks⟩ := exists_walks (α := α)
  rcases Nat.lt_or_ge payload.length width with few | enough
  · obtain ⟨need, beyond, bound, fails⟩ := walks.parse_of_lt few
    rw [← same] at fails
    refine ⟨⟨reading, same, walks⟩, iff_of_true ⟨_, fails⟩ few, fun cause refused => ?_, ?_⟩
    · cases fails.symm.trans refused
      exact ⟨need, rfl, beyond, bound⟩
    · exact iff_of_true (fun _ => ⟨need, _, fails⟩) fun _ => few
  · obtain ⟨record, parsed⟩ := walks.parse_of_le enough
    rw [← same] at parsed
    have long : ¬ payload.length < width := Nat.not_lt.mpr enough
    have accepted : ∀ cause, Record.parse (α := α) payload ≠ .error cause := by
      intro cause refused
      cases parsed.symm.trans refused
    refine ⟨⟨reading, same, walks⟩, iff_of_false (not_exists.mpr accepted) long,
      fun cause refused => absurd refused (accepted cause), fun refuses truncated => ?_,
      fun shorter truncated => absurd (shorter truncated) long⟩
    obtain ⟨need, available, refused⟩ := refuses truncated
    exact absurd refused (accepted _)

/-- A payload shorter than a record is refused as too short for all but two of the records of fixed
layout. Of the sizes of a port the last four bytes may be missing and of a traffic class the last
three, but no more. -/
theorem truncated_records_refused (payload : Bytes) :
    (RefusedBelow PortResources (Record.size PortResources - 4) payload ∧
      RefusedBelow TrafficClass (Record.size TrafficClass - 3) payload) ∧
    (RefusedBelow UnicastEntry (Record.size UnicastEntry) payload ∧
      RefusedBelow MulticastEntry (Record.size MulticastEntry) payload ∧
      RefusedBelow PortVlanEntry (Record.size PortVlanEntry) payload ∧
      RefusedBelow FunctionVlanEntry (Record.size FunctionVlanEntry) payload ∧
      RefusedBelow ManagerEntry (Record.size ManagerEntry) payload ∧
      RefusedBelow Promiscuity (Record.size Promiscuity) payload ∧
      RefusedBelow VlanOffload (Record.size VlanOffload) payload) ∧
    (RefusedBelow StageKey (Record.size StageKey) payload ∧
      RefusedBelow DirectorResources (Record.size DirectorResources) payload ∧
      RefusedBelow HitCounter (Record.size HitCounter) payload) ∧
    (RefusedBelow HashKey (Record.size HashKey) payload ∧
      RefusedBelow HashedFields (Record.size HashedFields) payload ∧
      RefusedBelow RedirectionTable (Record.size RedirectionTable) payload) := by
  have below (α : Type) [Record α] {width : Nat} [WalkedRecord α width] :
      RefusedBelow α width payload := WalkedRecord.refusedBelow α payload
  refine ⟨⟨below PortResources, below TrafficClass⟩, ⟨below UnicastEntry, below MulticastEntry,
    below PortVlanEntry, below FunctionVlanEntry, below ManagerEntry, below Promiscuity,
    below VlanOffload⟩, ⟨below StageKey, below DirectorResources, below HitCounter⟩,
    below HashKey, below HashedFields, below RedirectionTable⟩

/-- The sizes of a port, without the last four bytes. -/
def truncatedPort : Bytes :=
  [0, 16, 0, 0, 64, 0, 0, 0, 16, 0, 0, 0, 0, 1, 0, 16, 9, 0, 8, 0, 2, 0, 0, 0] ++
    List.replicate 40 0

/-- A traffic class, without the last three bytes. -/
def truncatedClass : Bytes := [4, 0, 2, 0, 1]

/-- Two truncated records are accepted as if they were whole. -/
theorem truncated_records_accepted :
    truncatedPort.length < Record.size PortResources ∧
      Record.parse truncatedPort =
        .ok (⟨4096, 64, 16, 256, 4096, 9, 8, 2⟩ : PortResources) ∧
      truncatedClass.length < Record.size TrafficClass ∧
      Record.parse truncatedClass = .ok (⟨4, 2, 1⟩ : TrafficClass) := by
  refine ⟨by decide, rfl, by decide, rfl⟩

end NicScope
