/-
This file says where the tuple fields of a key lie and which of them a rule has a tuple for. The
active fields lie one behind the other, and nothing but their number limits how far. A field that
does not lie inside both halves of a rule is left out just like one of which no bit is compared,
so a rule has all its tuples exactly if the halves are as long as all its fields together.
-/

import Mathlib.Algebra.Order.BigOperators.Group.List
import Mathlib.Algebra.Order.Ring.Nat
import NicScope.Proofs.Tables.TernaryKey

namespace NicScope

/-! ### Places -/

/-- A field and the byte of a key half where it starts. -/
structure KeyPlace where
  field : KeyField
  start : Nat
  deriving DecidableEq, Repr

namespace KeyPlace

/-- The byte behind the field. -/
def stop (place : KeyPlace) : Nat :=
  place.start + place.field.bytes

/-- Fields one behind the other, the first of which starts at `start`. -/
def inRow : Nat → List KeyField → List KeyPlace
  | _, [] => []
  | start, field :: rest => ⟨field, start⟩ :: inRow (start + field.bytes) rest

variable {fields : List KeyField} {start limit : Nat}

theorem map_field_inRow : (inRow start fields).map field = fields := by
  induction fields generalizing start with
  | nil => rfl
  | cons field rest inductionHypothesis => rw [inRow, List.map_cons, inductionHypothesis]

/-- Fields in a row end before a limit exactly if all their bytes together do. -/
theorem forall_stop_le_iff (before : start ≤ limit) :
    (∀ place ∈ inRow start fields, place.stop ≤ limit) ↔
      start + (fields.map KeyField.bytes).sum ≤ limit := by
  induction fields generalizing start with
  | nil => exact iff_of_true nofun before
  | cons field rest inductionHypothesis =>
    rw [inRow, List.forall_mem_cons, List.map_cons, List.sum_cons, ← Nat.add_assoc]
    constructor
    · rintro ⟨first, others⟩
      exact (inductionHypothesis first).mp others
    · intro all
      have first : start + field.bytes ≤ limit := (Nat.le_add_right _ _).trans all
      exact ⟨first, (inductionHypothesis first).mpr all⟩

end KeyPlace

namespace StageKey

variable (key : StageKey)

/-- The places of the active tuple fields. -/
def places : List KeyPlace :=
  KeyPlace.inRow 0 key.activeTuples

/-- The bytes of all active tuple fields together. -/
def tupleBytes : Nat :=
  (key.activeTuples.map KeyField.bytes).sum

theorem forall_places_iff {limit : Nat} :
    (∀ place ∈ key.places, place.stop ≤ limit) ↔ key.tupleBytes ≤ limit := by
  rw [places, KeyPlace.forall_stop_le_iff (Nat.zero_le limit), Nat.zero_add, tupleBytes]

variable {key} in
theorem whole_of_mem_places {place : KeyPlace} (member : place ∈ key.places) :
    place.field.Whole := by
  have active : place.field ∈ key.places.map KeyPlace.field := List.mem_map_of_mem member
  rw [places, KeyPlace.map_field_inRow] at active
  exact whole_of_active active

/-- All tuple fields together have eighty-four bytes. -/
theorem tupleBytes_le : key.tupleBytes ≤ 84 := by
  rw [tupleBytes, activeTuples, List.map_map]
  exact (List.filter_sublist.map _).sum_le_sum fun _ _ => Nat.zero_le _

/-- So many bytes are enough for every key, and no fewer are. -/
theorem forall_tupleBytes_le_iff {limit : Nat} :
    (∀ key : StageKey, key.tupleBytes ≤ limit) ↔ 84 ≤ limit := by
  constructor
  · exact fun all => all ⟨0, 1, 0, 0, 0, 0, 0, 0⟩
  · exact fun enough key => key.tupleBytes_le.trans enough

end StageKey

/-! ### What is read -/

namespace KeyPlace

variable (place : KeyPlace) (rule : Rule)

/-- The bits of the field that are compared, as far as the halves have the field. -/
def mask : Nat :=
  Bytes.toNat (List.zipWith (· ^^^ ·) ((rule.keyX.drop place.start).take place.field.bytes)
    ((rule.keyY.drop place.start).take place.field.bytes))

/-- What the rule says about the field. -/
def read? : Option Tuple :=
  Tuple.read? place.field rule.keyX rule.keyY place.start

variable {place rule}

theorem mask_lt (whole : place.field.Whole) : place.mask rule < 2 ^ 64 := by
  have size : (List.zipWith (· ^^^ ·) ((rule.keyX.drop place.start).take place.field.bytes)
      ((rule.keyY.drop place.start).take place.field.bytes)).length ≤ place.field.bytes := by
    rw [List.length_zipWith, List.length_take]
    exact (Nat.min_le_left _ _).trans (Nat.min_le_left _ _)
  calc place.mask rule
      < 256 ^ _ := Bytes.toNat_lt _
    _ ≤ 256 ^ place.field.bytes := Nat.pow_le_pow_right (by decide) size
    _ ≤ 2 ^ 64 := whole.pow_bytes ▸ whole.pow_le

/-- A field of which nothing is said lies outside one of the halves, or no bit is compared. -/
theorem read?_eq_none_iff (whole : place.field.Whole) : place.read? rule = none ↔
    (rule.keyX.length < place.stop ∨ rule.keyY.length < place.stop) ∨ place.mask rule = 0 := by
  have empty : UInt64.ofNat (place.mask rule) = 0 ↔ place.mask rule = 0 := by
    rw [← UInt64.toNat_inj, UInt64.toNat_ofNat_of_lt' (mask_lt whole)]
    rfl
  rw [read?, Tuple.read?]
  split
  next outside =>
    rw [Bool.or_eq_true, decide_eq_true_eq, decide_eq_true_eq] at outside
    exact iff_of_true rfl (.inl outside)
  next inside =>
    rw [Bool.or_eq_true, decide_eq_true_eq, decide_eq_true_eq] at inside
    rw [← empty]
    dsimp only
    split
    next none => exact iff_of_true rfl (.inr none)
    next some => exact iff_of_false (Option.some_ne_none _) (not_or.mpr ⟨inside, some⟩)

end KeyPlace

namespace Rule

theorem tuplesFrom_eq_filterMap (rule : Rule) {start : Nat} {fields : List KeyField}
    (whole : ∀ field ∈ fields, field.Whole) :
    tuplesFrom rule.keyX rule.keyY start fields =
      (KeyPlace.inRow start fields).filterMap fun place => place.read? rule := by
  induction fields generalizing start with
  | nil => rfl
  | cons field rest inductionHypothesis =>
    rw [tuplesFrom, (whole field List.mem_cons_self).advance,
      inductionHypothesis fun other member => whole other (List.mem_cons_of_mem _ member),
      KeyPlace.inRow, List.filterMap_cons, KeyPlace.read?]
    cases Tuple.read? field rule.keyX rule.keyY start <;> rfl

/-- The tuples of a rule are what it says about the places of its key, in their order. -/
theorem tuples_eq_filterMap (rule : Rule) (key : StageKey) :
    rule.tuples key = key.places.filterMap fun place => place.read? rule :=
  rule.tuplesFrom_eq_filterMap fun _ active => StageKey.whole_of_active active

end Rule

end NicScope
