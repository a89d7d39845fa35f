/-
This file proves what it takes for the records of the tables to be parsed. A record of fixed layout
is parsed from every payload of its size, by the bytes of its size alone; records one after another
are parsed exactly if the payload has the bytes of all of them, each from its own. A table with one
record for each function is refused exactly if it counts more functions than there can be, and else
has one record for each function that it counts.
-/

import NicScope.Proofs.Tables.Records
import NicScope.Tables.Scaling

namespace NicScope

variable {α β : Type}

/-! ### Records -/

/-- Four bytes at the end of the sizes are not even skipped. -/
instance : WalkedRecord PortResources 64 :=
  .of_walks rfl
    (walks_word.bind fun _ => walks_word.bind fun _ => walks_word.bind fun _ =>
      walks_half.bind fun _ => walks_half.bind fun _ => walks_half.bind fun _ =>
        walks_half.bind fun _ => walks_word.bind fun _ => (walks_skip 40).bind fun _ =>
          walks_pure _)
    rfl (Nat.le_add_right 64 4)

instance : WalkedRecord Promiscuity 4 :=
  .of_walks rfl
    ((walks_array 4).bind fun _ => walks_pure _)
    rfl (Nat.le_refl 4)

instance : WalkedRecord VlanOffload 20 :=
  .of_walks rfl
    (walks_half.bind fun _ => walks_half.bind fun _ => (walks_array 14).bind fun _ =>
      (walks_skip 2).bind fun _ => walks_pure _)
    rfl (Nat.le_refl 20)

instance : WalkedRecord StageKey 16 :=
  .of_walks rfl
    ((walks_array 6).bind fun _ => (walks_skip 2).bind fun _ => walks_word.bind fun _ =>
      walks_word.bind fun _ => walks_pure _)
    rfl (Nat.le_refl 16)

/-- A record inside another one is parsed from its own bytes. -/
theorem walks_record (α : Type) [Record α] [SizedRecord α] :
    Walks (Record.size α)
      (Cursor.bytes (Record.size α) >>= fun entry =>
        (Reading.ofExcept (Record.parse entry) : Reading α)) := by
  constructor
  case takes =>
    intro position front whole
    obtain ⟨record, parsed⟩ := FixedRecord.parses (α := α) front whole
    refine ⟨record, fun rest => ?_⟩
    have entry := Cursor.bytes_append position front rest
    rw [whole] at entry
    rw [Reading.run_bind_of_ok entry, parsed]
    rfl
  case lacks =>
    intro position rest few
    exact ((walks_bytes (Record.size α)).lacks position rest few).bind 0 _

theorem walks_record_bind [Record α] [SizedRecord α] {more : Nat} {next : α → Reading β}
    (later : ∀ record, Walks more (next record)) :
    Walks (Record.size α + more)
      (Cursor.bytes (Record.size α) >>= fun entry =>
        Reading.ofExcept (Record.parse entry) >>= next) := by
  have both := (walks_record α).bind later
  rwa [bind_assoc] at both

instance : WalkedRecord DirectorResources 48 :=
  .of_walks rfl
    (walks_byte.bind fun _ => walks_byte.bind fun _ => walks_half.bind fun _ =>
      walks_word.bind fun _ => walks_word.bind fun _ => walks_half.bind fun _ =>
        walks_half.bind fun _ => walks_record_bind fun _ => walks_record_bind fun _ =>
          walks_pure _)
    rfl (Nat.le_refl 48)

instance : WalkedRecord HashKey 132 :=
  .of_walks rfl
    (walks_half.bind fun _ => (walks_skip 2).bind fun _ => (walks_array 128).bind fun _ =>
      walks_pure _)
    rfl (Nat.le_refl 132)

instance : WalkedRecord HashedFields 16 :=
  .of_walks rfl
    (walks_long.bind fun _ => (walks_skip 8).bind fun _ => walks_pure _)
    rfl (Nat.le_refl 16)

theorem walks_halves (count : Nat) : Walks (2 * count) (readHalves count) := by
  induction count with
  | zero => exact walks_pure []
  | succ count inductionHypothesis =>
    have width : 2 * (count + 1) = 2 + (2 * count + 0) := by omega
    rw [width]
    exact walks_half.bind fun _ => inductionHypothesis.bind fun _ => walks_pure _

instance : WalkedRecord RedirectionTable 4100 :=
  .of_walks rfl
    (walks_half.bind fun _ => (walks_skip 2).bind fun _ =>
      (walks_halves maxRedirections).bind fun _ => walks_pure _)
    rfl (Nat.le_refl 4100)

/-- Three bytes at the end of a traffic class are not read. -/
instance : WalkedRecord TrafficClass 5 :=
  .of_walks rfl
    (walks_half.bind fun _ => walks_half.bind fun _ => walks_byte.bind fun _ => walks_pure _)
    rfl (Nat.le_add_right 5 3)

/-! ### Parsing by the bytes of the size -/

/-- Every payload of a size or longer is parsed, by its first bytes of that size alone. -/
def ParsesFront (size : Nat) (parse : Bytes → Except DecodeError α) : Prop :=
  ∀ payload : Bytes, size ≤ payload.length →
    ∃ record, parse payload = .ok record ∧ parse (payload.take size) = .ok record

theorem parsesFront_of_append {size : Nat} {parse : Bytes → Except DecodeError α}
    (parses : ∀ entry : Bytes, entry.length = size →
      ∃ record, ∀ rest, parse (entry ++ rest) = .ok record) : ParsesFront size parse := by
  intro payload enough
  obtain ⟨record, parsed⟩ := parses _ (List.length_take_of_le enough)
  refine ⟨record, ?_, ?_⟩
  · rw [← parsed (payload.drop size), List.take_append_drop]
  · rw [← parsed [], List.append_nil]

theorem SizedRecord.parsesFront (α : Type) [Record α] [SizedRecord α] :
    ParsesFront (Record.size α) (Record.parse (α := α)) :=
  parsesFront_of_append parses

theorem Rule.parsesFront (keyBytes : Nat) :
    ParsesFront (headSize + 2 * keyBytes) (parse keyBytes) :=
  parsesFront_of_append fun _ whole => exists_parse keyBytes whole

/-! ### Records one after another -/

/-- Records one after another are parsed exactly if a payload has the bytes of all of them. There
are as many as were asked for, each parsed from its own bytes. -/
structure ParsesRuns (size : Nat) (parse : Bytes → Except DecodeError α)
    (parseMany : Nat → Bytes → Except DecodeError (List α)) : Prop where
  whole : ∀ count payload, count * size ≤ payload.length →
    ∃ records, parseMany count payload = .ok records ∧ records.length = count ∧
      ∀ index (inside : index < records.length),
        parse ((payload.drop (index * size)).take size) = .ok (records.get ⟨index, inside⟩)
  short : ∀ count payload, payload.length < count * size →
    parseMany count payload = .error (.shortBuffer (count * size) payload.length)

theorem exists_parsePieces {size : Nat} {parse : Bytes → Except DecodeError α}
    (parses : ParsesFront size parse) {count : Nat} {payload : Bytes}
    (enough : count * size ≤ payload.length) :
    ∃ records, Record.parsePieces size parse count payload = .ok records ∧
      records.length = count ∧ ∀ index (inside : index < records.length),
        parse ((payload.drop (index * size)).take size) = .ok (records.get ⟨index, inside⟩) := by
  induction count generalizing payload with
  | zero => exact ⟨[], rfl, rfl, fun _ inside => absurd inside (Nat.not_lt_zero _)⟩
  | succ count inductionHypothesis =>
    rw [Nat.succ_mul] at enough
    obtain ⟨record, _, first⟩ := parses payload (by omega)
    have left : count * size ≤ (payload.drop size).length := by
      rw [List.length_drop]
      omega
    obtain ⟨records, later, length, each⟩ := inductionHypothesis left
    refine ⟨record :: records, ?_, congrArg Nat.succ length, ?_⟩
    · rw [Record.parsePieces, first, later]
      rfl
    · intro index inside
      cases index with
      | zero => rwa [Nat.zero_mul, List.drop_zero]
      | succ index =>
        have here := each index (Nat.lt_of_succ_lt_succ inside)
        rwa [List.drop_drop, Nat.add_comm, ← Nat.succ_mul] at here

theorem parsesRuns {size : Nat} {parse : Bytes → Except DecodeError α}
    (parses : ParsesFront size parse) :
    ParsesRuns size parse (Record.parseRun size parse) := by
  refine ⟨fun count payload enough => ?_, fun count payload few => if_pos few⟩
  rw [Record.parseRun, if_neg (Nat.not_lt.mpr enough)]
  exact exists_parsePieces parses enough

/-- What lies behind the bytes of all records does not matter. -/
theorem parsePieces_take {size count more : Nat} (parse : Bytes → Except DecodeError α)
    (payload : Bytes) (enough : count * size ≤ more) :
    Record.parsePieces size parse count (payload.take more) =
      Record.parsePieces size parse count payload := by
  induction count generalizing payload more with
  | zero => rfl
  | succ count inductionHypothesis =>
    rw [Nat.succ_mul] at enough
    rw [Record.parsePieces, Record.parsePieces, List.take_take, Nat.min_eq_left (by omega),
      List.drop_take, inductionHypothesis _ (by omega)]

theorem parseRun_take {size count more : Nat} (parse : Bytes → Except DecodeError α)
    (payload : Bytes) (enough : count * size ≤ more) :
    Record.parseRun size parse count (payload.take more) =
      Record.parseRun size parse count payload := by
  rcases Nat.lt_or_ge payload.length more with short | long
  · rw [List.take_of_length_le (Nat.le_of_lt short)]
  · rw [Record.parseRun, Record.parseRun, List.length_take_of_le long,
      if_neg (Nat.not_lt.mpr enough), if_neg (Nat.not_lt.mpr (Nat.le_trans enough long)),
      parsePieces_take parse payload enough]

/-! ### Tables with one record for each function -/

/-- The number of functions that a table states in the two bytes at `offset`. -/
def functionCount (offset : Nat) (payload : Bytes) : UInt16 :=
  UInt16.ofNat (Bytes.toNat ((payload.drop offset).take 2))

theorem functionCount_take {offset more : Nat} (enough : offset + 2 ≤ more) (payload : Bytes) :
    functionCount offset (payload.take more) = functionCount offset payload := by
  rw [functionCount, List.drop_take, List.take_take, Nat.min_eq_left (by omega), functionCount]

theorem run_skip_of_le {count : Nat} {rest : Bytes} (enough : count ≤ rest.length)
    (position : Nat) :
    (Cursor.skip count).run ⟨position, rest⟩ =
      (.ok (), ⟨position + count, rest.drop count⟩) :=
  Reading.run_bind_of_ok (Cursor.run_bytes_of_le enough position) _

theorem run_byte_of_le {rest : Bytes} (enough : 1 ≤ rest.length) (position : Nat) :
    Cursor.byte.run ⟨position, rest⟩ =
      (.ok (UInt8.ofNat (Bytes.toNat (rest.take 1))), ⟨position + 1, rest.drop 1⟩) :=
  Reading.run_bind_of_ok (Reading.run_bind_of_ok (Cursor.run_bytes_of_le enough position) _) _

theorem run_half_of_le {rest : Bytes} (enough : 2 ≤ rest.length) (position : Nat) :
    Cursor.half.run ⟨position, rest⟩ =
      (.ok (functionCount 0 rest), ⟨position + 2, rest.drop 2⟩) :=
  Reading.run_bind_of_ok (Reading.run_bind_of_ok (Cursor.run_bytes_of_le enough position) _) _

theorem run_readFunctionCount_of_le {rest : Bytes} (enough : 2 ≤ rest.length)
    (few : (functionCount 0 rest).toNat ≤ maxFunctions) (position : Nat) :
    readFunctionCount.run ⟨position, rest⟩ =
      (.ok (functionCount 0 rest).toNat, ⟨position + 2, rest.drop 2⟩) := by
  rw [readFunctionCount, Reading.run_bind_of_ok (run_half_of_le enough position),
    if_neg (Nat.not_lt.mpr few)]
  rfl

theorem run_readFunctionCount_of_lt {rest : Bytes} (enough : 2 ≤ rest.length)
    (many : maxFunctions < (functionCount 0 rest).toNat) (position : Nat) :
    readFunctionCount.run ⟨position, rest⟩ =
      (.error (.illegalFunctionCount (functionCount 0 rest)), ⟨position + 2, rest.drop 2⟩) := by
  rw [readFunctionCount, Reading.run_bind_of_ok (run_half_of_le enough position), if_pos many]
  rfl

/-- The records of all functions are what remains of a table. -/
theorem run_functions [Record β] (count position : Nat) (rest : Bytes) (make : List β → α) :
    (do
      let functions ← Reading.ofExcept (Record.parseMany count (← Cursor.remaining))
      return make functions : Reading α).run ⟨position, rest⟩ =
      ((Record.parseMany count rest).map make, ⟨position, rest⟩) := by
  change (Reading.ofExcept (Record.parseMany count rest) >>= fun functions =>
    pure (make functions)).run ⟨position, rest⟩ = _
  cases Record.parseMany (α := β) count rest with
  | ok functions => rfl
  | error cause => rfl

/-- What such a table parses to: the number of functions is among its first four bytes, and the
records are behind them. -/
def ParsesFunctions (α : Type) {β : Type} [Record α] [Record β] (offset : Nat)
    (make : Bytes → List β → α) : Prop :=
  ∀ payload : Bytes, 4 ≤ payload.length →
    (maxFunctions < (functionCount offset payload).toNat →
      Record.parse (α := α) payload =
        .error (.illegalFunctionCount (functionCount offset payload))) ∧
    ((functionCount offset payload).toNat ≤ maxFunctions →
      Record.parse payload =
        (Record.parseMany (functionCount offset payload).toNat (payload.drop 4)).map
          (make (payload.take 4)))

theorem PromiscuityTable.parsesFunctions :
    ParsesFunctions PromiscuityTable 0 fun _ => PromiscuityTable.mk := by
  intro payload enough
  have two : 2 ≤ payload.length := by omega
  have left : 2 ≤ (payload.drop 2).length := by
    rw [List.length_drop]
    omega
  constructor
  · intro many
    change Prod.fst ((readFunctionCount >>= _).run ⟨0, payload⟩) = _
    rw [Reading.run_bind_of_error (run_readFunctionCount_of_lt two many 0)]
  · intro few
    change Prod.fst ((readFunctionCount >>= _).run ⟨0, payload⟩) = _
    rw [Reading.run_bind_of_ok (run_readFunctionCount_of_le two few 0),
      Reading.run_bind_of_ok (run_skip_of_le left _), run_functions, List.drop_drop]

/-- The way the whole port is filtered, from the first byte of the table. -/
def VlanOffloadTable.portFilterOf (head : Bytes) : VlanFilter :=
  VlanFilter.ofBits (UInt8.ofNat (Bytes.toNat (head.take 1))).toUInt16

theorem VlanOffloadTable.portFilterOf_take (payload : Bytes) :
    portFilterOf (payload.take 4) = portFilterOf payload := by
  rw [portFilterOf, List.take_take, portFilterOf, Nat.min_eq_left (by omega)]

theorem VlanOffloadTable.parsesFunctions :
    ParsesFunctions VlanOffloadTable 2 fun head =>
      VlanOffloadTable.mk (VlanOffloadTable.portFilterOf head) := by
  intro payload enough
  have one : 1 ≤ payload.length := by omega
  have behind : 1 ≤ (payload.drop 1).length := by
    rw [List.length_drop]
    omega
  have left : 2 ≤ (payload.drop 2).length := by
    rw [List.length_drop]
    omega
  have head := run_byte_of_le one 0
  have gap := run_skip_of_le behind 1
  rw [List.drop_drop] at gap
  constructor
  · intro many
    change Prod.fst ((Cursor.byte >>= _).run ⟨0, payload⟩) = _
    rw [Reading.run_bind_of_ok head, Reading.run_bind_of_ok gap,
      Reading.run_bind_of_error (run_readFunctionCount_of_lt left many 2)]
    rfl
  · intro few
    change Prod.fst ((Cursor.byte >>= _).run ⟨0, payload⟩) = _
    rw [Reading.run_bind_of_ok head, Reading.run_bind_of_ok gap,
      Reading.run_bind_of_ok (run_readFunctionCount_of_le left few 2), run_functions,
      List.drop_drop]
    exact congrArg (fun filter => Except.map (VlanOffloadTable.mk filter) _)
      (VlanOffloadTable.portFilterOf_take payload).symm

/-- A table is parsed from the bytes of its size alone. It is refused exactly if it states more
functions than there can be; else it has one record for each function, parsed from behind the
first four bytes. -/
structure CountsFunctions (α : Type) {β : Type} [Record α] [Record β] (offset : Nat)
    (functions : α → List β) : Prop where
  front : ∀ payload : Bytes, Record.size α ≤ payload.length →
    Record.parse (payload.take (Record.size α)) = (Record.parse payload : Except DecodeError α)
  refused : ∀ payload : Bytes, Record.size α ≤ payload.length → ∀ cause,
    Record.parse (α := α) payload = .error cause ↔
      maxFunctions < (functionCount offset payload).toNat ∧
        cause = .illegalFunctionCount (functionCount offset payload)
  counted : ∀ payload : Bytes, Record.size α ≤ payload.length → ∀ table : α,
    Record.parse payload = .ok table →
      (functions table).length = (functionCount offset payload).toNat ∧
        Record.parseMany (functions table).length (payload.drop 4) = .ok (functions table)

/-- A table with few enough functions has the bytes of all their records. -/
theorem exists_parse_of_parsesFunctions {offset : Nat} {make : Bytes → List β → α}
    [Record α] [Record β] [SizedRecord β] (parses : ParsesFunctions α offset make)
    (size : Record.size α = 4 + maxFunctions * Record.size β) {payload : Bytes}
    (enough : Record.size α ≤ payload.length)
    (few : (functionCount offset payload).toNat ≤ maxFunctions) :
    ∃ records, Record.parse payload = .ok (make (payload.take 4) records) ∧
      records.length = (functionCount offset payload).toNat ∧
      Record.parseMany records.length (payload.drop 4) = .ok records := by
  have bound := Nat.mul_le_mul_right (Record.size β) few
  have room : (functionCount offset payload).toNat * Record.size β ≤
      (payload.drop 4).length := by
    rw [List.length_drop]
    omega
  obtain ⟨records, parsed, length, _⟩ :=
    (parsesRuns (SizedRecord.parsesFront β)).whole _ _ room
  refine ⟨records, ?_, length, ?_⟩
  · rw [(parses payload (by omega)).2 few, Record.parseMany, parsed]
    rfl
  · rw [length]
    exact parsed

theorem countsFunctions_of_parsesFunctions {offset : Nat} {make : Bytes → List β → α}
    {functions : α → List β} [Record α] [Record β] [SizedRecord β]
    (parses : ParsesFunctions α offset make) (inHead : offset + 2 ≤ 4)
    (size : Record.size α = 4 + maxFunctions * Record.size β)
    (made : ∀ head records, functions (make head records) = records) :
    CountsFunctions α offset functions := by
  constructor
  case front =>
    intro payload enough
    have taken : Record.size α ≤ (payload.take (Record.size α)).length :=
      Nat.le_of_eq (List.length_take_of_le enough).symm
    have same : functionCount offset (payload.take (Record.size α)) =
        functionCount offset payload := functionCount_take (by omega) payload
    rcases Nat.lt_or_ge maxFunctions (functionCount offset payload).toNat with many | few
    · rw [(parses _ (by omega)).1 (same ▸ many), (parses payload (by omega)).1 many, same]
    · rw [(parses _ (by omega)).2 (same ▸ few), (parses payload (by omega)).2 few, same,
        List.take_take, Nat.min_eq_left (by omega), List.drop_take, size, Nat.add_sub_cancel_left]
      have records := Nat.mul_le_mul_right (Record.size β) few
      exact congrArg _ (parseRun_take _ _ records)
  case refused =>
    intro payload enough cause
    constructor
    · intro fails
      rcases Nat.lt_or_ge maxFunctions (functionCount offset payload).toNat with many | few
      · rw [(parses payload (by omega)).1 many] at fails
        cases fails
        exact ⟨many, rfl⟩
      · obtain ⟨records, parsed, _⟩ := exists_parse_of_parsesFunctions parses size enough few
        cases fails.symm.trans parsed
    · rintro ⟨many, rfl⟩
      exact (parses payload (by omega)).1 many
  case counted =>
    intro payload enough table parsed
    rcases Nat.lt_or_ge maxFunctions (functionCount offset payload).toNat with many | few
    · cases parsed.symm.trans ((parses payload (by omega)).1 many)
    · obtain ⟨records, whole, length, run⟩ :=
        exists_parse_of_parsesFunctions parses size enough few
      cases whole.symm.trans parsed
      rw [made]
      exact ⟨length, run⟩

theorem PromiscuityTable.countsFunctions :
    CountsFunctions PromiscuityTable 0 PromiscuityTable.functions :=
  countsFunctions_of_parsesFunctions parsesFunctions (by decide) rfl fun _ _ => rfl

theorem VlanOffloadTable.countsFunctions :
    CountsFunctions VlanOffloadTable 2 VlanOffloadTable.functions :=
  countsFunctions_of_parsesFunctions parsesFunctions (by decide) rfl fun _ _ => rfl

end NicScope
