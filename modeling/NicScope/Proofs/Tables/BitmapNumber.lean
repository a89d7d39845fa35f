/-
This file proves that a bitmap of functions is one number, of 256 bits, from wherever it is looked
at. A function is set if the bit of its id is, the bytes that the bitmap was read from are the
base-256 digits of the number, and the text is its hexadecimal digits with colons between the words.
-/

import NicScope.Proofs.Tables.Records
import NicScope.Proofs.Text.DigitReading
import NicScope.Proofs.Text.Unmarked

namespace NicScope

open Numeral

/-! ### Bits of digits -/

/-- Where the digits are of a power of two each bit of a number stands in one digit. -/
theorem testBit_ofDigits {width : Nat} (positive : 0 < width) {digits : List Nat}
    (small : ∀ digit ∈ digits, digit < 2 ^ width) (index : Nat) :
    (Nat.ofDigits (2 ^ width) digits).testBit index =
      (digits.getD (index / width) 0).testBit (index % width) := by
  induction digits generalizing index with
  | nil => rw [Nat.ofDigits_nil, List.getD_nil, Nat.zero_testBit, Nat.zero_testBit]
  | cons digit rest inductionHypothesis =>
    obtain ⟨first, others⟩ := List.forall_mem_cons.mp small
    rw [Nat.ofDigits_cons, Nat.add_comm, Nat.testBit_two_pow_mul_add _ first]
    split
    next inside => rw [Nat.div_eq_of_lt inside, Nat.mod_eq_of_lt inside, List.getD_cons_zero]
    next outside =>
      have least := Nat.not_lt.mp outside
      rw [inductionHypothesis others, Nat.div_eq_sub_div positive least, List.getD_cons_succ,
        Nat.mod_eq_sub_mod least]

namespace Bytes

theorem toNat_eq_ofDigits (bytes : Bytes) :
    toNat bytes = Nat.ofDigits (2 ^ 8) (bytes.map UInt8.toNat) := by
  induction bytes with
  | nil => rfl
  | cons byte rest inductionHypothesis =>
    rw [toNat, inductionHypothesis, List.map_cons, Nat.ofDigits_cons]
    rfl

theorem toNat_append (bytes more : Bytes) :
    toNat (bytes ++ more) = toNat bytes + 256 ^ bytes.length * toNat more := by
  rw [toNat_eq_ofDigits, List.map_append, Nat.ofDigits_append, List.length_map,
    ← toNat_eq_ofDigits, ← toNat_eq_ofDigits]
  rfl

/-- Each bit of a number stands in one of its bytes. -/
theorem testBit_toNat (bytes : Bytes) {index : Nat} (inside : index / 8 < bytes.length) :
    (toNat bytes).testBit index = (bytes[index / 8].toNat).testBit (index % 8) := by
  have small : ∀ digit ∈ bytes.map UInt8.toNat, digit < 2 ^ 8 :=
    List.forall_mem_map.mpr fun byte _ => byte.toNat_lt
  rw [toNat_eq_ofDigits, testBit_ofDigits (by decide) small,
    List.getD_eq_getElem?_getD, List.getElem?_map, List.getElem?_eq_getElem inside]
  rfl

end Bytes

/-! ### Runs of one width -/

/-- Numbers written one behind the other in one width, the most significant first, are the digits of
a number in a larger base. -/
theorem writes_flatten {base width : Nat} (proper : 1 < base) (small : base ≤ 16)
    (positive : 0 < width) {numbers : List Nat} (nonempty : numbers ≠ [])
    (inside : ∀ number ∈ numbers, number < base ^ width) :
    Writes base (numbers.reverse.map (paddedDigits base width)).flatten
      (Nat.ofDigits (base ^ width) numbers) := by
  induction numbers with
  | nil => exact absurd rfl nonempty
  | cons number rest inductionHypothesis =>
    obtain ⟨first, others⟩ := List.forall_mem_cons.mp inside
    have written := writes_paddedDigits proper small width number
    rw [List.reverse_cons, List.map_append, List.map_singleton, List.flatten_append,
      List.flatten_singleton, Nat.ofDigits_cons, Nat.add_comm]
    cases rest with
    | nil => simpa using written
    | cons second others' =>
      have whole := (inductionHypothesis (List.cons_ne_nil _ _) others).append written
      rwa [length_paddedDigits proper positive first] at whole

/-- Without the separator nothing is left of joined texts but the texts. -/
theorem filter_intercalate {separator : Char} {pieces : List (List Char)}
    (absent : ∀ piece ∈ pieces, separator ∉ piece) :
    ([separator].intercalate pieces).filter (· ≠ separator) = pieces.flatten := by
  induction pieces with
  | nil => rfl
  | cons first rest inductionHypothesis =>
    obtain ⟨here, there⟩ := List.forall_mem_cons.mp absent
    have kept : first.filter (· ≠ separator) = first :=
      List.filter_eq_self.mpr fun sign member => decide_eq_true fun same => here (same ▸ member)
    cases rest with
    | nil => simpa using kept
    | cons second others =>
      rw [List.intercalate_cons_cons, List.filter_append, List.filter_append, kept,
        inductionHypothesis there]
      simp

namespace FunctionBitmap

variable (bitmap : FunctionBitmap)

/-- The number whose base-2³² digits, least significant first, are the words. -/
def number : Nat :=
  Nat.ofDigits (2 ^ 32) (bitmap.words.toList.map UInt32.toNat)

theorem words_lt : ∀ word ∈ bitmap.words.toList.map UInt32.toNat, word < 2 ^ 32 :=
  List.forall_mem_map.mpr fun word _ => word.toNat_lt

theorem number_lt : bitmap.number < 2 ^ 256 := by
  have bound := Nat.ofDigits_lt_base_pow_length (by decide) bitmap.words_lt
  rwa [List.length_map, Vector.length_toList, ← Nat.pow_mul] at bound

/-- A function is set if the bit of its id is. -/
theorem isSet_eq_testBit (id : UInt16) : bitmap.isSet id = bitmap.number.testBit id.toNat := by
  rw [isSet]
  split
  next inside =>
    have place : id.toNat / 32 < bitmap.words.toList.length := by
      rw [Vector.length_toList]
      omega
    rw [number, testBit_ofDigits (by decide) bitmap.words_lt,
      List.getD_eq_getElem?_getD, List.getElem?_map, List.getElem?_eq_getElem place,
      Vector.getElem_toList]
    rfl
  next outside =>
    have large : 2 ^ 256 ≤ 2 ^ id.toNat :=
      Nat.pow_le_pow_right (by decide) (Nat.not_lt.mp outside)
    exact (Nat.testBit_lt_two_pow (bitmap.number_lt.trans_le large)).symm

/-! ### Reading -/

/-- The first four bytes are read as the lowest base-2³² digit of all. -/
theorem run_word (more position : Nat) {bytes : Bytes} (rest : Bytes)
    (whole : bytes.length = 4 + more) :
    ∃ word behind, behind.length = more ∧
      Cursor.word.run ⟨position, bytes ++ rest⟩ = (.ok word, ⟨position + 4, behind ++ rest⟩) ∧
      Bytes.toNat bytes = word.toNat + 2 ^ 32 * Bytes.toNat behind := by
  have four : (bytes.take 4).length = 4 := List.length_take_of_le (by omega)
  have left : (bytes.drop 4).length = more := by
    rw [List.length_drop]
    omega
  have taken := Cursor.bytes_append position (bytes.take 4) (bytes.drop 4 ++ rest)
  have bound := Bytes.toNat_lt (bytes.take 4)
  rw [four] at taken bound
  refine ⟨UInt32.ofNat (Bytes.toNat (bytes.take 4)), bytes.drop 4, left, ?_, ?_⟩
  · rw [← List.append_assoc, List.take_append_drop] at taken
    rw [Cursor.word, Cursor.number, bind_assoc, Reading.run_bind_of_ok taken]
    rfl
  · rw [UInt32.toNat_ofNat_of_lt' bound]
    have parts := Bytes.toNat_append (bytes.take 4) (bytes.drop 4)
    rwa [List.take_append_drop, four] at parts

/-- Any 32 bytes are read as the bitmap whose number they are the digits of. -/
theorem run_read (position : Nat) {bytes : Bytes} (rest : Bytes) (whole : bytes.length = 32) :
    ∃ bitmap : FunctionBitmap,
      FunctionBitmap.read.run ⟨position, bytes ++ rest⟩ = (.ok bitmap, ⟨position + 32, rest⟩) ∧
      bitmap.number = Bytes.toNat bytes := by
  obtain ⟨first, _, whole, run₀, sum₀⟩ := run_word 28 position rest whole
  obtain ⟨second, _, whole, run₁, sum₁⟩ := run_word 24 (position + 4) rest whole
  obtain ⟨third, _, whole, run₂, sum₂⟩ := run_word 20 (position + 8) rest whole
  obtain ⟨fourth, _, whole, run₃, sum₃⟩ := run_word 16 (position + 12) rest whole
  obtain ⟨fifth, _, whole, run₄, sum₄⟩ := run_word 12 (position + 16) rest whole
  obtain ⟨sixth, _, whole, run₅, sum₅⟩ := run_word 8 (position + 20) rest whole
  obtain ⟨seventh, _, whole, run₆, sum₆⟩ := run_word 4 (position + 24) rest whole
  obtain ⟨eighth, _, whole, run₇, sum₇⟩ := run_word 0 (position + 28) rest whole
  obtain rfl := List.length_eq_zero_iff.mp whole
  refine ⟨⟨#v[first, second, third, fourth, fifth, sixth, seventh, eighth]⟩, ?_, ?_⟩
  · rw [FunctionBitmap.read, Reading.run_bind_of_ok run₀, Reading.run_bind_of_ok run₁,
      Reading.run_bind_of_ok run₂, Reading.run_bind_of_ok run₃, Reading.run_bind_of_ok run₄,
      Reading.run_bind_of_ok run₅, Reading.run_bind_of_ok run₆, Reading.run_bind_of_ok run₇]
    rfl
  · rw [sum₀, sum₁, sum₂, sum₃, sum₄, sum₅, sum₆, sum₇]
    rfl

/-- A function is set if its bit is in the byte where its id falls. -/
theorem isSet_iff_testBit_byte {bitmap : FunctionBitmap} {bytes : Vector UInt8 32}
    (same : bitmap.number = Bytes.toNat bytes.toList) (id : UInt16) :
    bitmap.isSet id = true ↔
      ∃ _ : id.toNat < 256, bytes[id.toNat / 8].toNat.testBit (id.toNat % 8) = true := by
  by_cases inside : id.toNat < 256
  · have place : id.toNat / 8 < bytes.toList.length := by
      rw [Vector.length_toList]
      omega
    rw [isSet_eq_testBit, same, Bytes.testBit_toNat _ place, Vector.getElem_toList]
    exact ⟨fun bit => ⟨inside, bit⟩, fun ⟨_, bit⟩ => bit⟩
  · rw [isSet, dif_neg inside]
    exact iff_of_false nofun fun ⟨small, _⟩ => inside small

/-! ### The text -/

theorem toList_render :
    bitmap.render.toList =
      [':'].intercalate
        ((bitmap.words.toList.map UInt32.toNat).reverse.map (paddedDigits 16 8)) := by
  rw [render, String.toList_intercalate, List.map_map, ← List.map_reverse, List.map_map]
  simp only [Function.comp_def, paddedHexadecimal, String.toList_ofList]
  rfl

/-- Without the colons the text is the number in hexadecimal. -/
theorem writes_render :
    Writes 16 (bitmap.render.toList.filter (· ≠ ':')) bitmap.number := by
  have absent : ∀ piece ∈
      (bitmap.words.toList.map UInt32.toNat).reverse.map (paddedDigits 16 8), ':' ∉ piece :=
    List.forall_mem_map.mpr fun _ _ => not_mem_paddedDigits (by decide) 16 8 _
  rw [toList_render, filter_intercalate absent]
  have nonempty : bitmap.words.toList.map UInt32.toNat ≠ [] := by
    rw [← List.length_pos_iff, List.length_map, Vector.length_toList]
    decide
  exact writes_flatten (by decide) (by decide) (by decide) nonempty bitmap.words_lt

end FunctionBitmap

end NicScope
