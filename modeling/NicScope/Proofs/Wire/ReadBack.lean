/-
This file proves that the bytes of a block head read back as that head. A reading
is followed from cursor to cursor: each field, met at the front of what is left,
is read as the value that was written and the cursor moves behind it. A layout is
lawful when that holds of all its fields together; the three block heads are, so
a response that begins with the bytes of a head opens as this head.
-/

import Mathlib.Algebra.Ring.Nat
import NicScope.Wire.BlockHead

namespace NicScope

/-! ### Numbers -/

namespace Bytes

theorem toNat_ofNat (width number : Nat) : toNat (ofNat width number) = number % 256 ^ width := by
  induction width generalizing number with
  | zero => simp [ofNat, toNat, Nat.mod_one]
  | succ width inductionHypothesis =>
    have digit : (UInt8.ofNat number).toNat = number % 256 := by simp
    rw [ofNat, toNat, inductionHypothesis, digit, Nat.pow_succ, Nat.mul_comm _ 256,
      Nat.mod_mul]

theorem toNat_lt (bytes : Bytes) : toNat bytes < 256 ^ bytes.length := by
  induction bytes with
  | nil => simp [toNat]
  | cons byte rest inductionHypothesis =>
    have bound := byte.toNat_lt
    simp only [toNat, List.length_cons, Nat.pow_succ]
    omega

end Bytes

/-! ### Readings -/

namespace Reading

variable {α β : Type}

theorem run_pure (value : α) (cursor : Cursor) :
    (pure value : Reading α).run cursor = (.ok value, cursor) := rfl

/-- After a successful reading the next one goes on where it stopped. -/
theorem run_bind_of_ok {reading : Reading α} {cursor moved : Cursor} {value : α}
    (succeeds : reading.run cursor = (.ok value, moved)) (next : α → Reading β) :
    (reading >>= next).run cursor = (next value).run moved := by
  change (ExceptT.bindCont next (reading.run cursor).1) (reading.run cursor).2 = _
  rw [succeeds]
  rfl

/-- After a failure nothing more is read. -/
theorem run_bind_of_error {reading : Reading α} {cursor stopped : Cursor} {cause : DecodeError}
    (fails : reading.run cursor = (.error cause, stopped)) (next : α → Reading β) :
    (reading >>= next).run cursor = (.error cause, stopped) := by
  change (ExceptT.bindCont next (reading.run cursor).1) (reading.run cursor).2 = _
  rw [fails]
  rfl

/-- A reading that succeeds as a whole succeeds in its first part and goes on where that stopped. -/
theorem exists_of_run_bind {reading : Reading α} {next : α → Reading β} {cursor last : Cursor}
    {result : β} (succeeds : (reading >>= next).run cursor = (.ok result, last)) :
    ∃ value moved, reading.run cursor = (.ok value, moved) ∧
      (next value).run moved = (.ok result, last) := by
  cases first : reading.run cursor with
  | mk outcome moved =>
    cases outcome with
    | ok value => exact ⟨value, moved, rfl, run_bind_of_ok first next ▸ succeeds⟩
    | error cause =>
      change (ExceptT.bindCont next (reading.run cursor).1) (reading.run cursor).2 = _ at succeeds
      rw [first] at succeeds
      cases succeeds

end Reading

/-! ### Fields -/

namespace Cursor

theorem bytes_append (position : Nat) (taken rest : Bytes) :
    (bytes taken.length).run ⟨position, taken ++ rest⟩ =
      (.ok taken, ⟨position + taken.length, rest⟩) := by
  change (if (List.take taken.length (taken ++ rest)).length = taken.length then _ else _) = _
  rw [List.take_left, List.drop_left, if_pos rfl]

theorem run_bytes_of_le {count : Nat} {rest : Bytes} (enough : count ≤ rest.length)
    (position : Nat) :
    (bytes count).run ⟨position, rest⟩ =
      (.ok (rest.take count), ⟨position + count, rest.drop count⟩) :=
  if_pos (List.length_take_of_le enough)

/-- Where too few bytes remain the cursor stays. -/
theorem run_bytes_of_lt {count : Nat} {rest : Bytes} (few : rest.length < count)
    (position : Nat) :
    (bytes count).run ⟨position, rest⟩ =
      (.error (.shortBuffer (position + count) (position + rest.length)), ⟨position, rest⟩) := by
  have short : ¬ (rest.take count).length = count := by
    rw [List.length_take]
    omega
  exact if_neg short

theorem length_of_bytes {count : Nat} {cursor moved : Cursor} {taken : Bytes}
    (succeeds : (bytes count).run cursor = (.ok taken, moved)) : taken.length = count := by
  change (if _ then _ else _) = _ at succeeds
  split at succeeds
  next whole =>
    cases succeeds
    exact whole
  next => cases succeeds

theorem number_append (position width number : Nat) (rest : Bytes) :
    (Cursor.number width).run ⟨position, Bytes.ofNat width number ++ rest⟩ =
      (.ok (number % 256 ^ width), ⟨position + width, rest⟩) := by
  have taken := bytes_append position (Bytes.ofNat width number) rest
  rw [Bytes.length_ofNat] at taken
  rw [Cursor.number, Reading.run_bind_of_ok taken, Reading.run_pure, Bytes.toNat_ofNat]

theorem byte_append (position : Nat) (value : UInt8) (rest : Bytes) :
    Cursor.byte.run ⟨position, (Field.byte value).bytes ++ rest⟩ =
      (.ok value, ⟨position + 1, rest⟩) := by
  have small : value.toNat < 256 ^ 1 := value.toNat_lt
  rw [Cursor.byte, Field.bytes,
    Reading.run_bind_of_ok (number_append position 1 value.toNat rest), Reading.run_pure,
    Nat.mod_eq_of_lt small, UInt8.ofNat_toNat]

theorem half_append (position : Nat) (value : UInt16) (rest : Bytes) :
    Cursor.half.run ⟨position, (Field.half value).bytes ++ rest⟩ =
      (.ok value, ⟨position + 2, rest⟩) := by
  have small : value.toNat < 256 ^ 2 := value.toNat_lt
  rw [Cursor.half, Field.bytes,
    Reading.run_bind_of_ok (number_append position 2 value.toNat rest), Reading.run_pure,
    Nat.mod_eq_of_lt small, UInt16.ofNat_toNat]

theorem word_append (position : Nat) (value : UInt32) (rest : Bytes) :
    Cursor.word.run ⟨position, (Field.word value).bytes ++ rest⟩ =
      (.ok value, ⟨position + 4, rest⟩) := by
  have small : value.toNat < 256 ^ 4 := value.toNat_lt
  rw [Cursor.word, Field.bytes,
    Reading.run_bind_of_ok (number_append position 4 value.toNat rest), Reading.run_pure,
    Nat.mod_eq_of_lt small, UInt32.ofNat_toNat]

end Cursor

/-! ### Layouts -/

theorem Field.length_bytes (field : Field) : field.bytes.length = field.size := by
  cases field <;> exact Bytes.length_ofNat _ _

theorem Field.layOut_cons (field : Field) (fields : List Field) :
    Field.layOut (field :: fields) = field.bytes ++ Field.layOut fields := rfl

theorem Field.length_layOut (fields : List Field) :
    (Field.layOut fields).length = Field.totalSize fields := by
  induction fields with
  | nil => rfl
  | cons field rest inductionHypothesis =>
    rw [Field.layOut_cons, List.length_append, inductionHypothesis, Field.length_bytes]
    rfl

/-- A layout whose bytes read back, whatever follows them. -/
class LawfulLayout (α : Type) [Layout α] : Prop where
  length_bytes : ∀ value : α, (Layout.bytes value).length = Layout.size α
  read_bytes : ∀ (value : α) (position : Nat) (rest : Bytes),
    (Layout.read : Reading α).run ⟨position, Layout.bytes value ++ rest⟩ =
      (.ok value, ⟨position + Layout.size α, rest⟩)

/-- A request of at most 32 words is sent as the words of its bytes. -/
theorem Request.encode_of_le {α : Type} [Layout α] (request : α)
    (small : Field.totalSize (Layout.fields request) ≤ 128) :
    Request.encode request = .ok (Bytes.toWords (Layout.bytes request)) := by
  have fits : ¬ Bytes.wordsFor (Field.totalSize (Layout.fields request)) >
      Request.maxWords := by
    simp only [Bytes.wordsFor, Bytes.wordSize, Request.maxWords]
    omega
  rw [Request.encode, Request.ofFields, if_neg fits, Layout.bytes]

/-! ### Block heads -/

instance : LawfulLayout PlainHead where
  length_bytes _ := Field.length_layOut _
  read_bytes head position rest := by
    simp only [Layout.bytes, Layout.fields, Field.layOut_cons, List.append_assoc]
    simp only [Layout.read, Reading.run_bind_of_ok (Cursor.byte_append _ _ _),
      Reading.run_bind_of_ok (Cursor.half_append _ _ _), Reading.run_pure]
    rfl

instance : LawfulLayout EntryHead where
  length_bytes _ := Field.length_layOut _
  read_bytes head position rest := by
    simp only [Layout.bytes, Layout.fields, Field.layOut_cons, List.append_assoc]
    simp only [Layout.read, Reading.run_bind_of_ok (Cursor.byte_append _ _ _),
      Reading.run_bind_of_ok (Cursor.half_append _ _ _),
      Reading.run_bind_of_ok (Cursor.word_append _ _ _), Reading.run_pure]
    rfl

instance : LawfulLayout DirectorHead where
  length_bytes _ := Field.length_layOut _
  read_bytes head position rest := by
    simp only [Layout.bytes, Layout.fields, Field.layOut_cons, List.append_assoc]
    simp only [Layout.read, Reading.run_bind_of_ok (Cursor.byte_append _ _ _),
      Reading.run_bind_of_ok (Cursor.half_append _ _ _),
      Reading.run_bind_of_ok (Cursor.word_append _ _ _), Reading.run_pure]
    rfl

/-- What begins with the bytes of a head opens as that head. -/
theorem decodeHead_bytes {η : Type} [BlockHead η] [LawfulLayout η] (head : η) (rest : Bytes) :
    decodeHead η (Layout.bytes head ++ rest) = .ok (head, rest) := by
  have long : ¬ (Layout.bytes head ++ rest).length < Layout.size η := by
    rw [List.length_append, LawfulLayout.length_bytes]
    omega
  rw [decodeHead, if_neg long, Cursor.start, LawfulLayout.read_bytes]

end NicScope
