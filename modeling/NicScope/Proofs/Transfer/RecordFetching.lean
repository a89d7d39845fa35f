/-
This file proves that a record that was fetched completely is also parsed. A blob always comes with
the bytes of the capacity it was asked for, so only a table that states more functions than there
can be is refused, and nothing but its function count is the reason.
-/

import NicScope.Proofs.Tables.SizedRecords
import NicScope.Proofs.Transfer.BlobSplitting

namespace NicScope

open Dialogue

variable {η ρ α σ : Type}

/-! ### Fetching -/

theorem length_of_result_blob [BlockHead η] [Layout ρ] {name : String} {header : Header}
    {capacity : Nat} {request : UInt8 → ρ} {channel : Query → σ → Reply × σ}
    {log : LogRecord → σ → σ} {state : σ} {payload : Bytes}
    (fetched : (Fetch.blob η name header capacity request).run.result channel log state =
      .ok payload) : payload.length = capacity := by
  rw [result_blob] at fetched
  cases read : (readBlocks η name capacity).result
      (fun index => (Fetch.block header request index).run channel log) log state with
  | ok blob =>
    rw [read] at fetched
    cases fetched
    exact Bytes.length_resize capacity blob
  | error cause =>
    rw [read] at fetched
    cases fetched

/-- A blob that arrived is parsed, whatever that gives. -/
theorem result_record [BlockHead η] [Layout ρ] [Record α] {name : String} {header : Header}
    {request : UInt8 → ρ} {channel : Query → σ → Reply × σ} {log : LogRecord → σ → σ}
    {state : σ} {payload : Bytes}
    (fetched : (Fetch.blob η name header (Record.size α) request).run.result channel log state =
      .ok payload) :
    (Fetch.record η name header request : Exchange α).run.result channel log state =
      (Record.parse payload).mapError .decode := by
  change (Dialogue.bind (Fetch.blob η name header (Record.size α) request).run _).result
    channel log state = _
  rw [result_bind, fetched]
  rfl

/-- Once its blob has arrived, a record fails to be fetched only as `refused` has it for the
bytes that arrived. -/
def FailsOnly (α : Type) [Record α] (refused : Bytes → Error → Prop) : Prop :=
  ∀ {η ρ σ : Type} [BlockHead η] [Layout ρ] (name : String) (header : Header)
    (request : UInt8 → ρ) (channel : Query → σ → Reply × σ) (log : LogRecord → σ → σ)
    (state : σ) (payload : Bytes),
    (Fetch.blob η name header (Record.size α) request).run.result channel log state =
      .ok payload →
    ∀ cause, (Fetch.record η name header request : Exchange α).run.result channel log state =
      .error cause → refused payload cause

/-- A failure behind a complete blob is one of parsing as many bytes as the record has. -/
theorem failsOnly_of_parse [Record α] {refused : Bytes → Error → Prop}
    (parses : ∀ payload : Bytes, Record.size α ≤ payload.length → ∀ cause,
      Record.parse (α := α) payload = .error cause → refused payload (.decode cause)) :
    FailsOnly α refused := by
  intro η ρ σ _ _ name header request channel log state payload fetched cause failed
  rw [result_record fetched] at failed
  have enough : Record.size α ≤ payload.length := Nat.le_of_eq (length_of_result_blob fetched).symm
  cases parsed : Record.parse (α := α) payload with
  | ok record =>
    rw [parsed] at failed
    cases failed
  | error reason =>
    rw [parsed] at failed
    cases failed
    exact parses payload enough reason parsed

/-! ### Every record -/

/-- A record that every payload of its size gives: by the bytes of that size alone, one after
another in runs, and whenever its blob arrives. -/
structure FixedLayout (α : Type) [Record α] : Prop where
  front : ParsesFront (Record.size α) (Record.parse (α := α))
  runs : ParsesRuns (Record.size α) (Record.parse (α := α)) Record.parseMany
  fetched : FailsOnly α fun _ _ => False

theorem SizedRecord.fixedLayout (α : Type) [Record α] [SizedRecord α] : FixedLayout α where
  front := parsesFront α
  runs := parsesRuns (parsesFront α)
  fetched := failsOnly_of_parse fun payload enough cause fails => by
    obtain ⟨record, parsed, _⟩ := parsesFront α payload enough
    cases parsed.symm.trans fails

/-- A table that only its function count can make fail, from the payload and from the device. -/
structure CountedLayout (α : Type) {β : Type} [Record α] [Record β] (offset : Nat)
    (functions : α → List β) : Prop where
  counts : CountsFunctions α offset functions
  fetched : FailsOnly α fun payload cause =>
    maxFunctions < (functionCount offset payload).toNat ∧
      cause = .decode (.illegalFunctionCount (functionCount offset payload))

theorem CountsFunctions.countedLayout {β : Type} [Record α] [Record β] {offset : Nat}
    {functions : α → List β} (counts : CountsFunctions α offset functions) :
    CountedLayout α offset functions where
  counts := counts
  fetched := failsOnly_of_parse fun payload enough cause fails => by
    obtain ⟨many, rfl⟩ := (counts.refused payload enough cause).mp fails
    exact ⟨many, rfl⟩

/-- Every record has its layout: fifteen are fixed, two tables depend on the number of functions
that they state, and rules are laid out by the width of their keys. -/
theorem records_laidOut :
    (FixedLayout PortResources ∧ FixedLayout UnicastEntry ∧ FixedLayout MulticastEntry ∧
      FixedLayout PortVlanEntry ∧ FixedLayout FunctionVlanEntry ∧ FixedLayout ManagerEntry ∧
      FixedLayout Promiscuity ∧ FixedLayout VlanOffload) ∧
    (FixedLayout StageKey ∧ FixedLayout DirectorResources ∧ FixedLayout HitCounter) ∧
    (FixedLayout HashKey ∧ FixedLayout HashedFields ∧ FixedLayout RedirectionTable ∧
      FixedLayout TrafficClass) ∧
    (CountedLayout PromiscuityTable 0 PromiscuityTable.functions ∧
      CountedLayout VlanOffloadTable 2 VlanOffloadTable.functions) ∧
    ∀ keyBytes,
      ParsesFront (Rule.headSize + 2 * keyBytes) (Rule.parse keyBytes) ∧
        ParsesRuns (Rule.headSize + 2 * keyBytes) (Rule.parse keyBytes)
          (Rule.parseMany keyBytes) := by
  have fixed {α : Type} [Record α] [SizedRecord α] : FixedLayout α := SizedRecord.fixedLayout α
  refine ⟨⟨fixed, fixed, fixed, fixed, fixed, fixed, fixed, fixed⟩, ⟨fixed, fixed, fixed⟩,
    ⟨fixed, fixed, fixed, fixed⟩, ⟨PromiscuityTable.countsFunctions.countedLayout,
      VlanOffloadTable.countsFunctions.countedLayout⟩, fun keyBytes => ?_⟩
  exact ⟨Rule.parsesFront keyBytes, parsesRuns (Rule.parsesFront keyBytes)⟩

end NicScope
