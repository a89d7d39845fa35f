/-
This file proves that the meta data fields of a rule are the bits of its meta data, cut up from the
top. What has been taken off at any time is the number above the bits that are left; so the fields
side by side are the number without the bits below them, and fields that were put side by side are
taken apart again. As long as the fields fit the number, and the number a word, no step can fail.
-/

import Mathlib.Algebra.Order.BigOperators.Group.List
import Mathlib.Algebra.Order.Floor.Div
import Mathlib.Data.List.Forall2
import Mathlib.Data.Nat.Bitwise
import NicScope.Proofs.Wire.ReadBack
import NicScope.Tables.Director

namespace NicScope

/-! ### Bit fields -/

namespace Bits

variable {high low : Nat}

theorem testBit_mask (order : low ≤ high) (inside : high < 64) (position : Nat) :
    (mask (UInt32.ofNat high) (UInt32.ofNat low)).toNat.testBit position =
      (decide (low ≤ position) && decide (position ≤ high)) := by
  have highest : (UInt32.ofNat high).toNat = high :=
    UInt32.toNat_ofNat_of_lt' (inside.trans (by decide))
  have lowest : (UInt32.ofNat low).toNat = low :=
    UInt32.toNat_ofNat_of_lt' ((order.trans_lt inside).trans (by decide))
  have below : UInt32.ofNat high ≤ 63 := by
    rw [UInt32.le_iff_toNat_le, highest]
    exact Nat.le_of_lt_succ inside
  have ones : (0xffffffffffffffff : UInt64).toNat = 2 ^ 64 - 1 := rfl
  have widest : (63 : UInt32).toNat = 63 := rfl
  rw [mask, UInt64.toNat_and, UInt64.toNat_shiftRight, UInt64.toNat_shiftLeft,
    UInt32.toNat_toUInt64, UInt32.toNat_toUInt64, UInt32.toNat_sub_of_le _ _ below, highest,
    lowest, ones, widest, Nat.testBit_and, Nat.testBit_shiftRight, Nat.testBit_mod_two_pow,
    Nat.testBit_shiftLeft, Nat.testBit_two_pow_sub_one, Nat.testBit_two_pow_sub_one,
    Bool.eq_iff_iff]
  simp only [Bool.and_eq_true, decide_eq_true_eq]
  omega

/-- A bit field is a number of as many bits as it has. -/
theorem toNat_field_mask (order : low ≤ high) (inside : high < 64) (word : UInt64) :
    (field word (mask (UInt32.ofNat high) (UInt32.ofNat low)) (UInt32.ofNat low)).toNat =
      word.toNat / 2 ^ low % 2 ^ (high + 1 - low) := by
  have lowest : (UInt32.ofNat low).toNat = low :=
    UInt32.toNat_ofNat_of_lt' ((order.trans_lt inside).trans (by decide))
  apply Nat.eq_of_testBit_eq
  intro position
  rw [field, UInt64.toNat_shiftRight, UInt32.toNat_toUInt64, lowest, UInt64.toNat_and,
    Nat.testBit_shiftRight, Nat.testBit_and, Nat.mod_eq_of_lt (order.trans_lt inside),
    testBit_mask order inside, Nat.testBit_mod_two_pow, Nat.testBit_div_two_pow,
    Nat.add_comm low, Bool.and_comm]
  congr 1
  rw [Bool.eq_iff_iff]
  simp only [Bool.and_eq_true, decide_eq_true_eq]
  omega

/-- The bits just below `top`, as many as a word of thirty-two bits has room for. -/
theorem toNat_field_below {top bits : Nat} (positive : 0 < bits) (short : bits ≤ 32)
    (fits : bits ≤ top) (inside : top ≤ 64) (word : UInt64) :
    (field word (mask (UInt32.ofNat (top - 1)) (UInt32.ofNat (top - bits)))
        (UInt32.ofNat (top - bits))).toUInt32.toNat =
      word.toNat / 2 ^ (top - bits) % 2 ^ bits := by
  have exact := toNat_field_mask (show top - bits ≤ top - 1 by omega) (by omega) word
  rw [show top - 1 + 1 - (top - bits) = bits by omega] at exact
  have small : word.toNat / 2 ^ (top - bits) % 2 ^ bits < 2 ^ 32 :=
    (Nat.mod_lt _ (Nat.two_pow_pos bits)).trans_le (Nat.pow_le_pow_right (by decide) short)
  rw [UInt64.toNat_toUInt32, exact, Nat.mod_eq_of_lt small]

end Bits

/-! ### Fields side by side -/

/-- A field that is not empty, and that a word of thirty-two bits has room for. -/
def ActiveMeta.Proper (field : ActiveMeta) : Prop :=
  0 < field.bits.toNat ∧ field.bits.toNat ≤ 32

namespace MetaData

/-- The bits of all fields together. -/
def width (fields : List ActiveMeta) : Nat :=
  (fields.map fun field => field.bits.toNat).sum

/-- Values put behind a number one after another, each in as many bits as its field has. -/
def packed (number : Nat) (fields : List ActiveMeta) (values : List Nat) : Nat :=
  (fields.zip values).foldl (fun number entry => number * 2 ^ entry.1.bits.toNat + entry.2) number

/-- A value has no more bits than its field. -/
def Suits (field : ActiveMeta) (value : Nat) : Prop :=
  value < 2 ^ field.bits.toNat

instance (field : ActiveMeta) (value : Nat) : Decidable (Suits field value) :=
  inferInstanceAs (Decidable (value < _))

/-- A field that was taken off: its position, its name and a value that suits it. -/
structure TakenFrom (field : ActiveMeta) (taken : MetaField) : Prop where
  index : taken.index = field.index
  name : taken.name = field.name
  suits : Suits field taken.value.toNat

variable {fields : List ActiveMeta} {field : ActiveMeta} {number : Nat} {values : List Nat}

theorem width_cons : width (field :: fields) = field.bits.toNat + width fields :=
  List.sum_cons

theorem width_append (others : List ActiveMeta) :
    width (fields ++ others) = width fields + width others := by
  rw [width, List.map_append, List.sum_append, width, width]

theorem packed_cons (value : Nat) :
    packed number (field :: fields) (value :: values) =
      packed (number * 2 ^ field.bits.toNat + value) fields values :=
  rfl

/-- Fields that fit are all taken off. Together with what stood above them they are the number
without the bits below. -/
theorem unpack?_of_fits (raw : UInt64) {top : Nat} (proper : ∀ field ∈ fields, field.Proper)
    (fits : width fields ≤ top) (inside : top ≤ 64) :
    ∃ taken, unpack? raw top fields = some taken ∧ List.Forall₂ TakenFrom fields taken ∧
      packed (raw.toNat / 2 ^ top) fields (taken.map (·.value.toNat)) =
        raw.toNat / 2 ^ (top - width fields) := by
  induction fields generalizing top with
  | nil => exact ⟨[], rfl, .nil, rfl⟩
  | cons field rest inductionHypothesis =>
    obtain ⟨positive, short⟩ := proper field List.mem_cons_self
    rw [width_cons] at fits
    obtain ⟨taken, unpacked, each, joined⟩ := inductionHypothesis
      (fun other member => proper other (List.mem_cons_of_mem _ member))
      (show width rest ≤ top - field.bits.toNat by omega) (by omega)
    have value := Bits.toNat_field_below positive short (by omega) inside raw
    generalize word : UInt64.toUInt32 _ = off at value
    have suits : Suits field off.toNat := value ▸ Nat.mod_lt _ (Nat.two_pow_pos _)
    -- What stands above this field is what stands above its lowest bit, without the field.
    have above : raw.toNat / 2 ^ top =
        raw.toNat / 2 ^ (top - field.bits.toNat) / 2 ^ field.bits.toNat := by
      rw [Nat.div_div_eq_div_mul, ← Nat.pow_add, Nat.sub_add_cancel (by omega)]
    refine ⟨⟨field.index, field.name, off⟩ :: taken, ?_, .cons ⟨rfl, rfl, suits⟩ each, ?_⟩
    · rw [unpack?, if_neg (by omega)]
      dsimp only
      rw [word, unpacked]
    · rw [List.map_cons, packed_cons, value, above, Nat.div_add_mod', joined, width_cons,
        Nat.sub_sub]

/-- A number with bits put behind it is told from the result, and so are the bits. -/
theorem behind_inj {bits first second value other : Nat} (suits : value < 2 ^ bits)
    (suits' : other < 2 ^ bits) (same : first * 2 ^ bits + value = second * 2 ^ bits + other) :
    first = second ∧ value = other := by
  have low : value = other := by
    rw [← Nat.mul_add_mod_of_lt suits, ← Nat.mul_add_mod_of_lt suits', same]
  subst low
  exact ⟨Nat.eq_of_mul_eq_mul_right (Nat.two_pow_pos bits) (Nat.add_right_cancel same), rfl⟩

/-- Values that suit their fields are told from the number that they make. -/
theorem packed_inj {others : List Nat} {first second : Nat}
    (suit : List.Forall₂ Suits fields values) (suit' : List.Forall₂ Suits fields others)
    (same : packed first fields values = packed second fields others) :
    first = second ∧ values = others := by
  induction suit generalizing others first second with
  | nil =>
    cases suit'
    exact ⟨same, rfl⟩
  | cons suits _ inductionHypothesis =>
    cases suit' with
    | cons suits' rest' =>
      obtain ⟨joined, rfl⟩ := inductionHypothesis rest' same
      obtain ⟨numbers, rfl⟩ := behind_inj suits suits' joined
      exact ⟨numbers, rfl⟩

/-- Values that suit their fields make a number of no more bits than all fields have. -/
theorem packed_lt {bits : Nat} (suit : List.Forall₂ Suits fields values)
    (small : number < 2 ^ bits) :
    packed number fields values < 2 ^ (bits + width fields) := by
  induction suit generalizing number bits with
  | nil => exact small
  | @cons field value rest _ suits _ inductionHypothesis =>
    have behind : number * 2 ^ field.bits.toNat + value < 2 ^ (bits + field.bits.toNat) := by
      rw [Nat.pow_add, Nat.mul_comm number]
      exact Nat.mul_add_lt_mul_of_lt_of_lt small suits
    rw [packed_cons, width_cons, ← Nat.add_assoc]
    exact inductionHypothesis behind

end MetaData

/-! ### The meta data of a key -/

namespace StageKey

variable (key : StageKey)

/-- The bytes of the meta data fields. -/
def metaBytes : Nat :=
  key.metaBits ⌈/⌉ 8

theorem metaBits_eq_width : key.metaBits = MetaData.width key.activeMeta.reverse := by
  rw [metaBits, MetaData.width, List.map_reverse, List.sum_reverse, List.sum, List.foldr_map]

/-- All meta data fields together have forty bits. -/
theorem metaBits_le : key.metaBits ≤ 40 := by
  rw [metaBits_eq_width, MetaData.width, List.map_reverse, List.sum_reverse, activeMeta,
    List.map_map]
  exact (List.filter_sublist.map _).sum_le_sum (fun _ _ => Nat.zero_le _)

theorem metaBits_le_metaBytes : key.metaBits ≤ 8 * key.metaBytes := by
  rw [metaBytes, Nat.ceilDiv_eq_add_pred_div]
  omega

theorem metaBytes_le : key.metaBytes ≤ 5 := by
  have few := key.metaBits_le
  rw [metaBytes, Nat.ceilDiv_eq_add_pred_div]
  omega

variable {key} in
theorem proper_of_mem {field : ActiveMeta} (active : field ∈ key.activeMeta) : field.Proper := by
  obtain ⟨⟨⟨name, bits⟩, position⟩, kept, rfl⟩ := List.mem_map.mp active
  have all : ∀ entry ∈ metaFields, 0 < entry.2.toNat ∧ entry.2.toNat ≤ 32 := by decide
  exact all (name, bits) ((List.mem_zipIdx' (List.mem_filter.mp kept).1).2 ▸ List.getElem_mem _)

/-- The fields are those whose bits are clear in the mask, in their order. -/
theorem map_index_activeMeta : key.activeMeta.map (·.index) =
    (List.range metaFields.length).filter fun position => !Bits.flag key.metaMask position := by
  rw [activeMeta, List.map_map, List.range_eq_range', ← List.zipIdx_map_snd 0 metaFields,
    List.filter_map]
  rfl

/-- The number that has `values` in its fields and `padding` below the last of them. -/
def metaNumber (values : List Nat) (padding : Nat) : Nat :=
  MetaData.packed 0 key.activeMeta.reverse values * 2 ^ (8 * key.metaBytes - key.metaBits) +
    padding

section

variable {padding : Nat} (below : padding < 2 ^ (8 * key.metaBytes - key.metaBits))

include below

theorem metaNumber_div (values : List Nat) :
    key.metaNumber values padding / 2 ^ (8 * key.metaBytes - key.metaBits) =
      MetaData.packed 0 key.activeMeta.reverse values := by
  rw [metaNumber, Nat.mul_comm (MetaData.packed _ _ _), Nat.mul_add_div (Nat.two_pow_pos _),
    Nat.div_eq_of_lt below, Nat.add_zero]

theorem metaNumber_lt {values : List Nat}
    (suit : List.Forall₂ MetaData.Suits key.activeMeta.reverse values) :
    key.metaNumber values padding < 256 ^ key.metaBytes := by
  have packs : MetaData.packed 0 key.activeMeta.reverse values < 2 ^ (0 + key.metaBits) :=
    key.metaBits_eq_width ▸ MetaData.packed_lt suit (by decide)
  have total : 256 ^ key.metaBytes =
      2 ^ key.metaBits * 2 ^ (8 * key.metaBytes - key.metaBits) := by
    rw [← Nat.pow_add, Nat.add_sub_of_le key.metaBits_le_metaBytes, Nat.pow_mul]
  rw [Nat.zero_add] at packs
  rw [metaNumber, total, Nat.mul_comm (MetaData.packed _ _ _)]
  exact Nat.mul_add_lt_mul_of_lt_of_lt packs below

end

/-- What the meta data asks of a half of a key, of which `active` bytes are in use: it lies at
the end of these, in not more bytes than a word has, and whenever a field is taken off its bits
are still there. -/
structure HasMeta (active : Nat) (half : Bytes) : Prop where
  bits_le : key.metaBits ≤ 40
  bytes_le : key.metaBytes ≤ 8
  tail : key.metaBytes ≤ active
  inside : active ≤ half.length
  step : ∀ before field after, key.activeMeta.reverse = before ++ field :: after →
    0 < field.bits.toNat ∧ MetaData.width before + field.bits.toNat ≤ 8 * key.metaBytes

variable {key} in
theorem hasMeta_of_le {active : Nat} {half : Bytes} (wide : 5 ≤ active)
    (inside : active ≤ half.length) : key.HasMeta active half where
  bits_le := key.metaBits_le
  bytes_le := key.metaBytes_le.trans (by decide)
  tail := key.metaBytes_le.trans wide
  inside := inside
  step before field after split := by
    have active : field ∈ key.activeMeta := by
      rw [← List.mem_reverse, split]
      exact List.mem_append_right _ List.mem_cons_self
    have fits := key.metaBits_le_metaBytes
    rw [metaBits_eq_width, split, MetaData.width_append, MetaData.width_cons] at fits
    exact ⟨(proper_of_mem active).1, by omega⟩

end StageKey

/-- What the meta data of a stage is that `bytes` hold: the fields from the highest position
down, the bits of which side by side are the bytes without the bits below the last field. -/
structure MetaData.Reads (data : MetaData) (key : StageKey) (bytes : Bytes) : Prop where
  raw : data.raw.toNat = Bytes.toNat bytes
  indices : data.fields.map (·.index) =
    ((List.range metaFields.length).filter fun position =>
      !Bits.flag key.metaMask position).reverse
  each : List.Forall₂ TakenFrom key.activeMeta.reverse data.fields
  joined : packed 0 key.activeMeta.reverse (data.fields.map (·.value.toNat)) =
    data.raw.toNat / 2 ^ (8 * key.metaBytes - key.metaBits)

theorem MetaData.map_index_of_taken {fields : List ActiveMeta} {taken : List MetaField}
    (each : List.Forall₂ TakenFrom fields taken) :
    taken.map (·.index) = fields.map (·.index) := by
  induction each with
  | nil => rfl
  | cons first _ inductionHypothesis =>
    rw [List.map_cons, List.map_cons, first.index, inductionHypothesis]

namespace Rule

variable (rule : Rule) (key : StageKey) (active : Nat)

/-- The bytes that hold the meta data where `active` bytes of a key are in use. -/
def metaSlice : Bytes :=
  (rule.keyY.drop (active - key.metaBytes)).take key.metaBytes

/-- These bytes as one word. -/
def metaWord : UInt64 :=
  UInt64.ofNat (Bytes.toNat (rule.metaSlice key active))

/-- The rule with `number` in the bytes of its meta data. -/
def withMeta (number : Nat) : Rule :=
  { rule with
    keyY := rule.keyY.take (active - key.metaBytes) ++
      (Bytes.ofNat key.metaBytes number ++ rule.keyY.drop active) }

variable {rule key active}

theorem length_metaSlice (fits : key.HasMeta active rule.keyY) :
    (rule.metaSlice key active).length = key.metaBytes := by
  have tail := fits.tail
  have inside := fits.inside
  rw [metaSlice, List.length_take, List.length_drop]
  omega

theorem length_keyY_withMeta (fits : key.HasMeta active rule.keyY) (number : Nat) :
    (rule.withMeta key active number).keyY.length = rule.keyY.length := by
  have tail := fits.tail
  have inside := fits.inside
  rw [withMeta, List.length_append, List.length_append, Bytes.length_ofNat, List.length_take,
    List.length_drop]
  omega

theorem metaSlice_withMeta (fits : key.HasMeta active rule.keyY) (number : Nat) :
    (rule.withMeta key active number).metaSlice key active = Bytes.ofNat key.metaBytes number := by
  have front : (rule.keyY.take (active - key.metaBytes)).length = active - key.metaBytes :=
    List.length_take_of_le ((Nat.sub_le _ _).trans fits.inside)
  rw [metaSlice, withMeta, List.drop_left' front, List.take_left' (Bytes.length_ofNat _ _)]

theorem toNat_metaWord (fits : key.HasMeta active rule.keyY) :
    (rule.metaWord key active).toNat = Bytes.toNat (rule.metaSlice key active) := by
  have small := Bytes.toNat_lt (rule.metaSlice key active)
  rw [length_metaSlice fits] at small
  have held : 256 ^ key.metaBytes ≤ UInt64.size :=
    Nat.pow_le_pow_right (show 0 < 256 by decide) fits.bytes_le
  exact UInt64.toNat_ofNat_of_lt' (small.trans_le held)

section

variable {mode : TableMode} {bits : UInt16} (known : mode.keyBits? = some bits)
  (whole : bits.toNat = 8 * active) (fits : key.HasMeta active rule.keyY)

include known whole fits

theorem metaData?_eq_map : rule.metaData? mode key =
    (MetaData.unpack? (rule.metaWord key active) (8 * key.metaBytes) key.activeMeta.reverse).map
      fun fields => ⟨rule.metaWord key active, fields⟩ := by
  have bytes : bits.toNat / 8 = active := by omega
  have count : (key.metaBits + 7) / 8 = key.metaBytes := by
    rw [StageKey.metaBytes, Nat.ceilDiv_eq_add_pred_div]
    rfl
  have enough : ¬ (key.metaBytes > 8 || key.metaBytes > active ||
      decide (rule.keyY.length < active)) = true := by
    have few := fits.bytes_le
    have tail := fits.tail
    have inside := fits.inside
    simp only [Bool.or_eq_true, decide_eq_true_eq]
    omega
  simp only [metaData?, known, Option.bind_eq_bind, Option.bind_some, bytes, count,
    if_neg enough, Nat.mul_comm key.metaBytes]
  exact Option.map_eq_bind.symm

/-- Meta data that has its place is read from there. -/
theorem metaData?_of_hasMeta :
    ∃ data, rule.metaData? mode key = some data ∧ data.Reads key (rule.metaSlice key active) := by
  have raw := toNat_metaWord fits
  have few := fits.bytes_le
  obtain ⟨fields, unpacked, each, joined⟩ := MetaData.unpack?_of_fits (rule.metaWord key active)
    (fun field member => StageKey.proper_of_mem (List.mem_reverse.mp member))
    (key.metaBits_eq_width ▸ key.metaBits_le_metaBytes) (by omega)
  -- Nothing stands above the first field.
  have small := Bytes.toNat_lt (rule.metaSlice key active)
  rw [length_metaSlice fits, ← raw, show 256 = 2 ^ 8 from rfl, ← Nat.pow_mul] at small
  rw [Nat.div_eq_of_lt small, ← key.metaBits_eq_width] at joined
  refine ⟨⟨rule.metaWord key active, fields⟩, ?_, ⟨raw, ?_, each, joined⟩⟩
  · rw [metaData?_eq_map known whole fits, unpacked, Option.map_some]
  · rw [MetaData.map_index_of_taken each, List.map_reverse, key.map_index_activeMeta]

/-- Values that were packed are read back, whatever bits were put below them. -/
theorem metaData?_withMeta {values : List Nat}
    (suit : List.Forall₂ MetaData.Suits key.activeMeta.reverse values) {padding : Nat}
    (below : padding < 2 ^ (8 * key.metaBytes - key.metaBits)) :
    ∃ data, (rule.withMeta key active (key.metaNumber values padding)).metaData? mode key =
        some data ∧
      data.Reads key (Bytes.ofNat key.metaBytes (key.metaNumber values padding)) ∧
      data.fields.map (·.value.toNat) = values := by
  have inside := length_keyY_withMeta fits (key.metaNumber values padding) ▸ fits.inside
  obtain ⟨data, decoded, reads⟩ := metaData?_of_hasMeta known whole { fits with inside := inside }
  rw [metaSlice_withMeta fits] at reads
  have joined := reads.joined
  rw [reads.raw, Bytes.toNat_ofNat, Nat.mod_eq_of_lt (key.metaNumber_lt below suit),
    key.metaNumber_div below] at joined
  have suit' := List.forall₂_map_right_iff.mpr (reads.each.imp fun _ _ taken => taken.suits)
  exact ⟨data, decoded, reads, (MetaData.packed_inj suit' suit joined).2⟩

end

end Rule

end NicScope
