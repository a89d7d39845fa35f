/-
This file proves that what the tuple fields of a rule are to be reads back from its key. A field
asks for a value under a mask; the key has the value in its half y and the other bits of the mask
in its half x, so the halves differ exactly in the mask. Fields lie behind one another in both
halves, also those of which no bit is compared, and whatever stands behind the last of them is
not read.
-/

import Mathlib.Data.List.Basic
import Mathlib.Data.Nat.Bitwise
import Mathlib.Logic.Function.Basic
import NicScope.Proofs.Wire.ReadBack
import NicScope.Tables.Director

namespace NicScope

/-! ### Bytes bit by bit -/

namespace Bytes

theorem xor_of_digits {first second : Nat} (firstSmall : first < 2 ^ 8)
    (secondSmall : second < 2 ^ 8) (more others : Nat) :
    (first + 2 ^ 8 * more) ^^^ (second + 2 ^ 8 * others) =
      (first ^^^ second) + 2 ^ 8 * (more ^^^ others) := by
  have small := Nat.xor_lt_two_pow firstSmall secondSmall
  rw [Nat.add_comm first, Nat.add_comm second, Nat.add_comm (first ^^^ second)]
  apply Nat.eq_of_testBit_eq
  intro position
  rw [Nat.testBit_xor, Nat.testBit_two_pow_mul_add _ firstSmall,
    Nat.testBit_two_pow_mul_add _ secondSmall, Nat.testBit_two_pow_mul_add _ small]
  split
  · rw [Nat.testBit_xor]
  · rw [Nat.testBit_xor]

/-- Numbers of one width are compared bit by bit as their bytes are. -/
theorem toNat_zipWith_xor {first second : Bytes} (same : first.length = second.length) :
    toNat (List.zipWith (· ^^^ ·) first second) = toNat first ^^^ toNat second := by
  induction first generalizing second with
  | nil =>
    obtain rfl := List.length_eq_zero_iff.mp same.symm
    rfl
  | cons byte rest inductionHypothesis =>
    cases second with
    | nil => cases same
    | cons other others =>
      have digits := xor_of_digits byte.toNat_lt other.toNat_lt (toNat rest) (toNat others)
      rw [List.zipWith_cons_cons, toNat, inductionHypothesis (Nat.succ.inj same), UInt8.toNat_xor]
      exact digits.symm

end Bytes

/-! ### Patterns -/

/-- What a rule asks of a field: which of its bits are compared, and what they have to be. -/
structure KeyPattern (field : KeyField) where
  mask : Nat
  value : Nat
  mask_lt : mask < 2 ^ field.bits.toNat
  /-- Only bits that are compared are set. -/
  covered : value &&& mask = value

namespace KeyPattern

variable {field : KeyField} (pattern : KeyPattern field)

theorem value_lt : pattern.value < 2 ^ field.bits.toNat :=
  (pattern.covered ▸ Nat.and_le_right).trans_lt pattern.mask_lt

/-- The bytes of the field in half x: the bits that have to be clear. -/
def bytesX : Bytes :=
  Bytes.ofNat field.bytes (Nat.ldiff pattern.mask pattern.value)

/-- The bytes of the field in half y: the bits that have to be set. -/
def bytesY : Bytes :=
  Bytes.ofNat field.bytes pattern.value

/-- The halves differ in the bits that are compared. -/
theorem ldiff_xor_value :
    Nat.ldiff pattern.mask pattern.value ^^^ pattern.value = pattern.mask := by
  apply Nat.eq_of_testBit_eq
  intro position
  have covered := congrArg (Nat.testBit · position) pattern.covered
  simp only [Nat.testBit_and] at covered
  rw [Nat.testBit_xor, Nat.testBit_ldiff]
  revert covered
  cases pattern.mask.testBit position <;> cases pattern.value.testBit position <;> decide

end KeyPattern

/-- A field that fills whole bytes, not more than a number has. -/
structure KeyField.Whole (field : KeyField) : Prop where
  whole : 8 * field.bytes = field.bits.toNat
  narrow : field.bits.toNat ≤ 64

namespace KeyField.Whole

variable {field : KeyField} (whole : field.Whole) (pattern : KeyPattern field)

include whole

theorem pow_bytes : 256 ^ field.bytes = 2 ^ field.bits.toNat := by
  rw [← whole.whole, Nat.pow_mul]

theorem advance : field.bits.toNat / 8 = field.bytes := by
  have := whole.whole
  omega

theorem pow_le : 2 ^ field.bits.toNat ≤ UInt64.size :=
  Nat.pow_le_pow_right (by decide) whole.narrow

theorem toNat_bytesY : Bytes.toNat pattern.bytesY = pattern.value := by
  rw [KeyPattern.bytesY, Bytes.toNat_ofNat, whole.pow_bytes, Nat.mod_eq_of_lt pattern.value_lt]

/-- The mask is read off both halves. -/
theorem toNat_xor_bytes :
    Bytes.toNat (List.zipWith (· ^^^ ·) pattern.bytesX pattern.bytesY) = pattern.mask := by
  have clear : Nat.ldiff pattern.mask pattern.value < 2 ^ field.bits.toNat :=
    Nat.bitwise_lt_two_pow pattern.mask_lt pattern.value_lt
  rw [Bytes.toNat_zipWith_xor (by rw [KeyPattern.bytesX, KeyPattern.bytesY, Bytes.length_ofNat,
      Bytes.length_ofNat]), whole.toNat_bytesY, KeyPattern.bytesX, Bytes.toNat_ofNat,
    whole.pow_bytes, Nat.mod_eq_of_lt clear, pattern.ldiff_xor_value]

end KeyField.Whole

/-- Every tuple field fills whole bytes. -/
theorem KeyField.whole_of_position (position : Fin tupleFields.length) :
    tupleFields[position].Whole := by
  have all : ∀ position : Fin tupleFields.length,
      8 * tupleFields[position].bytes = tupleFields[position].bits.toNat ∧
        tupleFields[position].bits.toNat ≤ 64 := by
    decide
  exact ⟨(all position).1, (all position).2⟩

/-! ### Positions -/

namespace StageKey

/-- The positions of the active fields, in increasing order: the bits that are clear in the
tuple mask. -/
def activePositions (key : StageKey) : List (Fin tupleFields.length) :=
  (List.finRange tupleFields.length).filter fun position =>
    key.tupleMask.toNat.testBit position = false

/-- The active fields are those at the active positions, one by one. -/
theorem activeTuples_eq (key : StageKey) :
    key.activeTuples = key.activePositions.map fun position => tupleFields[position] := by
  have numbered : tupleFields.zipIdx =
      (List.finRange tupleFields.length).map fun position =>
        (tupleFields[position], position.val) := by
    decide
  have clear (position : Fin tupleFields.length) : (!Bits.flag key.tupleMask position) =
      decide (key.tupleMask.toNat.testBit position = false) := by
    rw [Bits.flag]
    cases key.tupleMask.toNat.testBit position <;> rfl
  rw [activeTuples, numbered, List.filter_map, List.map_map, activePositions]
  simp only [← clear]
  rfl

theorem whole_of_active {key : StageKey} {field : KeyField} (active : field ∈ key.activeTuples) :
    field.Whole := by
  rw [activeTuples_eq] at active
  obtain ⟨position, _, rfl⟩ := List.mem_map.mp active
  exact KeyField.whole_of_position position

end StageKey

/-! ### Keys -/

namespace Rule

/-- What a field of a pattern reads back as, if any of its bits is compared. -/
def tuple? (field : KeyField) (pattern : KeyPattern field) : Option Tuple :=
  if pattern.mask = 0 then none
  else some ⟨field.name, UInt64.ofNat pattern.mask, field.kind, UInt64.ofNat pattern.value⟩

/-- A field is read where it lies in both halves. -/
theorem read?_of_bytes {field : KeyField} (whole : field.Whole) (pattern : KeyPattern field)
    {frontX frontY : Bytes} (level : frontX.length = frontY.length) (restX restY : Bytes) :
    Tuple.read? field (frontX ++ (pattern.bytesX ++ restX)) (frontY ++ (pattern.bytesY ++ restY))
        frontY.length = tuple? field pattern := by
  have lengthX : pattern.bytesX.length = field.bytes := Bytes.length_ofNat _ _
  have lengthY : pattern.bytesY.length = field.bytes := Bytes.length_ofNat _ _
  have inside : ¬ ((frontX ++ (pattern.bytesX ++ restX)).length < frontY.length + field.bytes ||
      (frontY ++ (pattern.bytesY ++ restY)).length < frontY.length + field.bytes) = true := by
    simp only [List.length_append, lengthX, lengthY, level, Bool.or_eq_true, decide_eq_true_eq]
    omega
  have x : ((frontX ++ (pattern.bytesX ++ restX)).drop frontY.length).take field.bytes =
      pattern.bytesX := by
    rw [← level, List.drop_left, ← lengthX, List.take_left]
  have y : ((frontY ++ (pattern.bytesY ++ restY)).drop frontY.length).take field.bytes =
      pattern.bytesY := by
    rw [List.drop_left, ← lengthY, List.take_left]
  have masks : UInt64.ofNat pattern.mask = 0 ↔ pattern.mask = 0 := by
    rw [← UInt64.toNat_inj, UInt64.toNat_ofNat_of_lt' (pattern.mask_lt.trans_le whole.pow_le)]
    rfl
  rw [Tuple.read?, if_neg inside, x, y]
  dsimp only
  rw [whole.toNat_xor_bytes, whole.toNat_bytesY, tuple?]
  simp only [masks]

/-- Fields that lie behind one another are read one after another, and what lies in front of them
or behind them is not. -/
theorem tuplesFrom_of_patterns
    (patterns : (position : Fin tupleFields.length) → KeyPattern tupleFields[position])
    (positions : List (Fin tupleFields.length)) {frontX frontY : Bytes}
    (level : frontX.length = frontY.length) (restX restY : Bytes) :
    tuplesFrom (frontX ++ (positions.flatMap (fun position => (patterns position).bytesX) ++ restX))
        (frontY ++ (positions.flatMap (fun position => (patterns position).bytesY) ++ restY))
        frontY.length (positions.map fun position => tupleFields[position]) =
      positions.filterMap fun position => tuple? tupleFields[position] (patterns position) := by
  induction positions generalizing frontX frontY with
  | nil => rfl
  | cons position positions inductionHypothesis =>
    have here := KeyField.whole_of_position position
    -- The field takes its bytes in both halves, whether any of its bits is compared or not.
    have level' : (frontX ++ (patterns position).bytesX).length =
        (frontY ++ (patterns position).bytesY).length := by
      simp only [List.length_append, level, KeyPattern.bytesX, KeyPattern.bytesY,
        Bytes.length_ofNat]
    have moved : (frontY ++ (patterns position).bytesY).length =
        frontY.length + tupleFields[position].bits.toNat / 8 := by
      rw [List.length_append, KeyPattern.bytesY, Bytes.length_ofNat, here.advance]
    have further := inductionHypothesis level'
    rw [moved, List.append_assoc, List.append_assoc] at further
    simp only [List.flatMap_cons, List.append_assoc]
    rw [List.map_cons, tuplesFrom, read?_of_bytes here _ level, further, List.filterMap_cons]
    cases tuple? tupleFields[position] (patterns position) <;> rfl

/-- The rule with a key put together from patterns: in both halves the bytes of the active fields
one behind the other, and any bytes behind them. -/
def ofPatterns (rule : Rule) (key : StageKey)
    (patterns : (position : Fin tupleFields.length) → KeyPattern tupleFields[position])
    (restX restY : Bytes) : Rule :=
  { rule with
    keyX := key.activePositions.flatMap (fun position => (patterns position).bytesX) ++ restX
    keyY := key.activePositions.flatMap (fun position => (patterns position).bytesY) ++ restY }

/-- A rule whose key was put together from patterns has as tuples the fields whose bits are clear
in the tuple mask and of which a bit is compared, in the order of their positions, each with the
mask and the value of its pattern. -/
theorem tuples_ofPatterns (rule : Rule) (key : StageKey)
    (patterns : (position : Fin tupleFields.length) → KeyPattern tupleFields[position])
    (restX restY : Bytes) :
    ((rule.ofPatterns key patterns restX restY).tuples key).map (fun tuple =>
        (tuple.name, tuple.kind, tuple.mask.toNat, tuple.value.toNat)) =
      (key.activePositions.filter fun position => (patterns position).mask ≠ 0).map fun position =>
        (tupleFields[position].name, tupleFields[position].kind, (patterns position).mask,
          (patterns position).value) := by
  have reads : (rule.ofPatterns key patterns restX restY).tuples key =
      key.activePositions.filterMap fun position =>
        tuple? tupleFields[position] (patterns position) := by
    rw [tuples, key.activeTuples_eq]
    exact tuplesFrom_of_patterns patterns key.activePositions
      (show ([] : Bytes).length = [].length from rfl) restX restY
  rw [reads, List.map_filterMap, ← List.filterMap_eq_map, ← List.filterMap_eq_filter,
    List.filterMap_filterMap]
  apply List.filterMap_congr
  intro position active
  have bound := (KeyField.whole_of_position position).pow_le
  have mask := UInt64.toNat_ofNat_of_lt' ((patterns position).mask_lt.trans_le bound)
  have value := UInt64.toNat_ofNat_of_lt' ((patterns position).value_lt.trans_le bound)
  by_cases empty : (patterns position).mask = 0
  · simp [tuple?, Option.guard, empty]
  · simp [tuple?, Option.guard, empty, mask, value]

/-! ### A key of three fields -/

/-- A stage that builds its key from the outer VLAN tag, the outer type of service and the number
of the tunnel. -/
def tunnelKey : StageKey :=
  ⟨0, 1, 0, 0, 0, 0, 0xffffbfbb, 0xffffffff⟩

/-- Some bits of the tag are compared, all of the tunnel, and none of any other field. -/
def tunnelPatterns : (position : Fin tupleFields.length) → KeyPattern tupleFields[position] :=
  Function.update (Function.update (fun _ => ⟨0, 0, Nat.two_pow_pos _, rfl⟩)
    ⟨2, by decide⟩ ⟨0x0fff, 0x0123, by decide, by decide⟩)
    ⟨14, by decide⟩ ⟨0xffffff, 0x00abcd, by decide, by decide⟩

/-- A rule with such a key, behind which there is one more byte in each half. -/
def tunnelRule : Rule :=
  ofPatterns ⟨0, 1, 0, 0, [], []⟩ tunnelKey tunnelPatterns [0x77] [0x99]

/-- Between the fields that are read lies one of which no bit is compared. -/
theorem tuples_tunnelRule :
    tunnelKey.activePositions.map Fin.val = [2, 6, 14] ∧
      tunnelRule.keyX = [0xdc, 0x0e, 0, 0x32, 0x54, 0xff, 0x77] ∧
      tunnelRule.keyY = [0x23, 0x01, 0, 0xcd, 0xab, 0, 0x99] ∧
      (tunnelRule.tuples tunnelKey).map (fun tuple =>
          (tuple.name, tuple.kind, tuple.mask.toNat, tuple.value.toNat)) =
        [("ot_vlan_tag_fst", .u16, 0x0fff, 0x0123), ("ot_tun_vni", .vni, 0xffffff, 0x00abcd)] :=
  ⟨by decide, by decide +kernel, by decide,
    (tuples_ofPatterns ⟨0, 1, 0, 0, [], []⟩ tunnelKey tunnelPatterns [0x77] [0x99]).trans
      (by decide)⟩

end Rule

end NicScope
