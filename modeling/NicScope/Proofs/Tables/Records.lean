/-
This file proves that the entries of a table are parsed one by one. A reading of fixed
width succeeds on every payload that is long enough, moves the cursor by its width and
does not depend on what lies behind that, and it finds every shorter payload too short.
The entries of the paged tables are read by such readings, so each parses, whatever its
bytes are and whatever follows them. Entries of the size of a record, laid one after
another, give the records that they give alone.
-/

import NicScope.Proofs.Wire.ReadBack
import NicScope.Tables.Director
import NicScope.Tables.Port

namespace NicScope

variable {α β : Type}

/-! ### Readings of fixed width -/

/-- A reading that succeeds on any next `width` bytes and moves past them. What it gives does not
depend on what follows them. -/
def Takes (width : Nat) (reading : Reading α) : Prop :=
  ∀ (position : Nat) (front : Bytes), front.length = width →
    ∃ value, ∀ rest, reading.run ⟨position, front ++ rest⟩ = (.ok value, ⟨position + width, rest⟩)

theorem takes_pure (value : α) : Takes 0 (pure value : Reading α) := by
  intro position front empty
  obtain rfl := List.length_eq_zero_iff.mp empty
  exact ⟨value, fun _ => rfl⟩

theorem Takes.bind {width more : Nat} {reading : Reading α} {next : α → Reading β}
    (first : Takes width reading) (second : ∀ value, Takes more (next value)) :
    Takes (width + more) (reading >>= next) := by
  intro position front whole
  have taken : (front.take width).length = width := List.length_take_of_le (by omega)
  have left : (front.drop width).length = more := by
    rw [List.length_drop]
    omega
  obtain ⟨value, succeeds⟩ := first position _ taken
  obtain ⟨result, ends⟩ := second value (position + width) _ left
  refine ⟨result, fun rest => ?_⟩
  rw [← List.take_append_drop width front, List.append_assoc,
    Reading.run_bind_of_ok (succeeds _), ends, Nat.add_assoc]

theorem takes_bytes (count : Nat) : Takes count (Cursor.bytes count) := by
  rintro position front rfl
  exact ⟨front, Cursor.bytes_append position front⟩

/-- Too few bytes remain for a reading, which takes no more than `width`: it says so, with how far
it would have gone. -/
def Lacks (width position : Nat) (rest : Bytes) (reading : Reading α) : Prop :=
  ∃ need stopped, reading.run ⟨position, rest⟩ =
      (.error (.shortBuffer need (position + rest.length)), stopped) ∧
    position + rest.length < need ∧ need ≤ position + width

theorem Lacks.bind {width position : Nat} {rest : Bytes} {reading : Reading α}
    (lacks : Lacks width position rest reading) (more : Nat) (next : α → Reading β) :
    Lacks (width + more) position rest (reading >>= next) := by
  obtain ⟨need, stopped, fails, beyond, bound⟩ := lacks
  exact ⟨need, stopped, Reading.run_bind_of_error fails next, beyond, by omega⟩

/-- What lacks bytes after a reading of `width` bytes lacks them in the whole. -/
theorem Lacks.behind {width more position : Nat} {rest : Bytes} {reading : Reading α}
    {next : α → Reading β} {value : α} (enough : width ≤ rest.length)
    (ran : reading.run ⟨position, rest⟩ = (.ok value, ⟨position + width, rest.drop width⟩))
    (lacks : Lacks more (position + width) (rest.drop width) (next value)) :
    Lacks (width + more) position rest (reading >>= next) := by
  have left : position + width + (rest.drop width).length = position + rest.length := by
    rw [List.length_drop]
    omega
  obtain ⟨need, stopped, fails, beyond, bound⟩ := lacks
  rw [left] at fails beyond
  exact ⟨need, stopped, (Reading.run_bind_of_ok ran next).trans fails, beyond, by omega⟩

/-- A reading whose fields and gaps are `width` bytes together: it takes them, and fewer are too few
for it. -/
structure Walks (width : Nat) (reading : Reading α) : Prop where
  takes : Takes width reading
  lacks : ∀ position rest, rest.length < width → Lacks width position rest reading

theorem walks_pure (value : α) : Walks 0 (pure value : Reading α) :=
  ⟨takes_pure value, fun _ _ few => absurd few (Nat.not_lt_zero _)⟩

theorem Walks.bind {width more : Nat} {reading : Reading α} {next : α → Reading β}
    (first : Walks width reading) (second : ∀ value, Walks more (next value)) :
    Walks (width + more) (reading >>= next) := by
  refine ⟨first.takes.bind fun value => (second value).takes, fun position rest few => ?_⟩
  -- The bytes run out within the first reading or behind it.
  rcases Nat.lt_or_ge rest.length width with short | enough
  · exact (first.lacks position rest short).bind more next
  · obtain ⟨value, succeeds⟩ := first.takes position _ (List.length_take_of_le enough)
    have ran := succeeds (rest.drop width)
    rw [List.take_append_drop] at ran
    have left : (rest.drop width).length < more := by
      rw [List.length_drop]
      omega
    exact Lacks.behind enough ran ((second value).lacks _ _ left)

theorem walks_bytes (count : Nat) : Walks count (Cursor.bytes count) :=
  ⟨takes_bytes count, fun position rest few =>
    ⟨_, _, Cursor.run_bytes_of_lt few position, by omega, Nat.le_refl _⟩⟩

theorem walks_number (width : Nat) : Walks width (Cursor.number width) :=
  (walks_bytes width).bind fun _ => walks_pure _

theorem walks_byte : Walks 1 Cursor.byte :=
  (walks_number 1).bind fun _ => walks_pure _

theorem walks_half : Walks 2 Cursor.half :=
  (walks_number 2).bind fun _ => walks_pure _

theorem walks_word : Walks 4 Cursor.word :=
  (walks_number 4).bind fun _ => walks_pure _

theorem walks_long : Walks 8 Cursor.long :=
  (walks_number 8).bind fun _ => walks_pure _

theorem walks_skip (count : Nat) : Walks count (Cursor.skip count) :=
  (walks_bytes count).bind fun _ => walks_pure _

theorem walks_array (count : Nat) : Walks count (Cursor.array count) :=
  (walks_bytes count).bind fun _ => walks_pure _

theorem walks_macAddress : Walks 6 MacAddress.read :=
  (walks_array 6).bind fun _ => walks_pure _

theorem walks_functionBitmap : Walks 32 FunctionBitmap.read :=
  walks_word.bind fun _ => walks_word.bind fun _ => walks_word.bind fun _ =>
    walks_word.bind fun _ => walks_word.bind fun _ => walks_word.bind fun _ =>
      walks_word.bind fun _ => walks_word.bind fun _ => walks_pure _

theorem Takes.parses {width : Nat} {reading : Reading α} (takes : Takes width reading)
    {payload : Bytes} (enough : width ≤ payload.length) :
    ∃ value, ∀ rest, reading.parse (payload ++ rest) = .ok value := by
  obtain ⟨value, succeeds⟩ := takes 0 (payload.take width) (List.length_take_of_le enough)
  refine ⟨value, fun rest => ?_⟩
  rw [← List.take_append_drop width payload, List.append_assoc]
  exact congrArg Prod.fst (succeeds _)

/-! ### Records -/

/-- A record that every run of bytes of its size parses to. -/
class FixedRecord (α : Type) [Record α] : Prop where
  parses : ∀ entry : Bytes, entry.length = Record.size α →
    ∃ record : α, Record.parse entry = .ok record

/-- A record that every run of bytes of its size parses to, whatever follows them. -/
class SizedRecord (α : Type) [Record α] : Prop where
  parses : ∀ entry : Bytes, entry.length = Record.size α →
    ∃ record : α, ∀ rest, Record.parse (entry ++ rest) = .ok record

instance [Record α] [SizedRecord α] : FixedRecord α where
  parses entry whole := by
    obtain ⟨record, parsed⟩ := SizedRecord.parses (α := α) entry whole
    exact ⟨record, List.append_nil entry ▸ parsed []⟩

/-- A record whose fields and gaps are `width` bytes together, no more than its size. -/
class WalkedRecord (α : Type) [Record α] (width : outParam Nat) : Prop where
  exists_walks : ∃ reading : Reading α, Record.parse = reading.parse ∧ Walks width reading
  width_le : width ≤ Record.size α

theorem WalkedRecord.of_walks [Record α] {reading : Reading α} {total width : Nat}
    (same : Record.parse = reading.parse) (walks : Walks total reading) (adds : total = width)
    (fits : width ≤ Record.size α) : WalkedRecord α width :=
  ⟨⟨reading, same, adds ▸ walks⟩, fits⟩

instance [Record α] {width : Nat} [WalkedRecord α width] : SizedRecord α where
  parses entry whole := by
    obtain ⟨reading, same, walks⟩ := WalkedRecord.exists_walks (α := α)
    rw [same]
    exact walks.takes.parses (whole ▸ WalkedRecord.width_le)

instance : WalkedRecord UnicastEntry 28 :=
  .of_walks rfl
    (walks_word.bind fun _ => walks_macAddress.bind fun _ => walks_half.bind fun _ =>
      walks_half.bind fun _ => walks_half.bind fun _ => walks_half.bind fun _ =>
        walks_half.bind fun _ => walks_half.bind fun _ => walks_half.bind fun _ =>
          walks_half.bind fun _ => (walks_skip 2).bind fun _ => walks_pure _)
    rfl (Nat.le_refl 28)

instance : WalkedRecord MulticastEntry 44 :=
  .of_walks rfl
    (walks_word.bind fun _ => walks_macAddress.bind fun _ => (walks_skip 2).bind fun _ =>
      walks_functionBitmap.bind fun _ => walks_pure _)
    rfl (Nat.le_refl 44)

instance : WalkedRecord PortVlanEntry 4 :=
  .of_walks rfl
    (walks_half.bind fun _ => walks_byte.bind fun _ => (walks_skip 1).bind fun _ => walks_pure _)
    rfl (Nat.le_refl 4)

instance : WalkedRecord FunctionVlanEntry 36 :=
  .of_walks rfl
    (walks_half.bind fun _ => (walks_skip 2).bind fun _ =>
      walks_functionBitmap.bind fun _ => walks_pure _)
    rfl (Nat.le_refl 36)

instance : WalkedRecord ManagerEntry 28 :=
  .of_walks rfl
    (walks_word.bind fun _ => walks_macAddress.bind fun _ => walks_byte.bind fun _ =>
      walks_byte.bind fun _ => walks_half.bind fun _ => walks_half.bind fun _ =>
        walks_byte.bind fun _ => walks_byte.bind fun _ => walks_byte.bind fun _ =>
          walks_byte.bind fun _ => walks_byte.bind fun _ => walks_byte.bind fun _ =>
            walks_half.bind fun _ => walks_half.bind fun _ => (walks_skip 2).bind fun _ =>
              walks_pure _)
    rfl (Nat.le_refl 28)

instance : WalkedRecord HitCounter 16 :=
  .of_walks rfl
    (walks_half.bind fun _ => (walks_skip 6).bind fun _ => walks_long.bind fun _ =>
      walks_pure _)
    rfl (Nat.le_refl 16)

theorem Rule.exists_parse (keyBytes : Nat) {entry : Bytes}
    (whole : entry.length = headSize + 2 * keyBytes) :
    ∃ rule, ∀ rest, Rule.parse keyBytes (entry ++ rest) = .ok rule := by
  refine Takes.parses (Walks.takes
    (walks_word.bind fun _ => walks_byte.bind fun _ => (walks_skip 3).bind fun _ =>
      walks_word.bind fun _ => walks_word.bind fun _ => (walks_bytes keyBytes).bind fun _ =>
        (walks_bytes keyBytes).bind fun _ => walks_pure _)) ?_
  rw [whole, headSize]
  omega

/-- Both key halves of a rule have as many bytes as it was parsed with. -/
theorem Rule.length_keys_of_parse {keyBytes : Nat} {payload : Bytes} {rule : Rule}
    (parsed : Rule.parse keyBytes payload = .ok rule) :
    rule.keyX.length = keyBytes ∧ rule.keyY.length = keyBytes := by
  obtain ⟨_, _, _, read⟩ := Reading.exists_of_run_bind (Prod.ext parsed rfl)
  obtain ⟨_, _, _, read⟩ := Reading.exists_of_run_bind read
  obtain ⟨_, _, _, read⟩ := Reading.exists_of_run_bind read
  obtain ⟨_, _, _, read⟩ := Reading.exists_of_run_bind read
  obtain ⟨_, _, _, read⟩ := Reading.exists_of_run_bind read
  obtain ⟨_, _, x, read⟩ := Reading.exists_of_run_bind read
  obtain ⟨_, _, y, read⟩ := Reading.exists_of_run_bind read
  cases read
  exact ⟨Cursor.length_of_bytes x, Cursor.length_of_bytes y⟩

/-! ### Records one after another -/

theorem length_flatten_of_whole {size : Nat} {entries : List Bytes}
    (whole : ∀ entry ∈ entries, entry.length = size) :
    entries.flatten.length = entries.length * size := by
  rw [List.length_flatten, List.map_congr_left whole, List.map_const', List.sum_replicate_nat]

/-- Entries of one size, one after another, are parsed one by one. -/
theorem parseRun_flatten {size : Nat} (parse : Bytes → Except DecodeError α)
    {entries : List Bytes} (whole : ∀ entry ∈ entries, entry.length = size) :
    Record.parseRun size parse entries.length entries.flatten = entries.mapM parse := by
  rw [Record.parseRun, length_flatten_of_whole whole, if_neg (Nat.lt_irrefl _)]
  induction entries with
  | nil => rfl
  | cons entry rest inductionHypothesis =>
    have first := whole entry List.mem_cons_self
    rw [List.length_cons, Record.parsePieces, List.flatten_cons, List.take_left' first,
      List.drop_left' first, List.mapM_cons,
      inductionHypothesis fun other member => whole other (List.mem_cons_of_mem _ member)]

/-- Where every entry parses there is one record for each, in order. -/
theorem exists_mapM_of_parses {parse : Bytes → Except DecodeError α} {entries : List Bytes}
    (parses : ∀ entry ∈ entries, ∃ record, parse entry = .ok record) :
    ∃ records, entries.mapM parse = .ok records ∧
      entries.map parse = records.map .ok := by
  induction entries with
  | nil => exact ⟨[], rfl, rfl⟩
  | cons entry rest inductionHypothesis =>
    obtain ⟨record, first⟩ := parses entry List.mem_cons_self
    obtain ⟨records, all, each⟩ :=
      inductionHypothesis fun other member => parses other (List.mem_cons_of_mem _ member)
    refine ⟨record :: records, ?_, ?_⟩
    · rw [List.mapM_cons, first, all]
      rfl
    · rw [List.map_cons, List.map_cons, first, each]

theorem Record.parseMany_flatten [Record α] {entries : List Bytes}
    (whole : ∀ entry ∈ entries, entry.length = size α) :
    Record.parseMany (α := α) entries.length entries.flatten = entries.mapM parse :=
  parseRun_flatten parse whole

theorem FixedRecord.exists_parseMany [Record α] [FixedRecord α] {entries : List Bytes}
    (whole : ∀ entry ∈ entries, entry.length = Record.size α) :
    ∃ records : List α, Record.parseMany entries.length entries.flatten = .ok records ∧
      entries.map Record.parse = records.map .ok := by
  rw [Record.parseMany_flatten whole]
  exact exists_mapM_of_parses fun entry member => parses entry (whole entry member)

theorem Rule.exists_parseMany (keyBytes : Nat) {entries : List Bytes}
    (whole : ∀ entry ∈ entries, entry.length = headSize + 2 * keyBytes) :
    ∃ rules, Rule.parseMany keyBytes entries.length entries.flatten = .ok rules ∧
      entries.map (parse keyBytes) = rules.map .ok := by
  rw [Rule.parseMany, parseRun_flatten (parse keyBytes) whole]
  refine exists_mapM_of_parses fun entry member => ?_
  obtain ⟨rule, parsed⟩ := exists_parse keyBytes (whole entry member)
  exact ⟨rule, List.append_nil entry ▸ parsed []⟩

end NicScope
