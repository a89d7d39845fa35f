/-
This file proves that values survive the words that carry them. Words hold the bytes that they were
made of and zeroes up to a whole word. Each request reads back from its words, so different requests
have different words, and a request is refused exactly if it needs too many. What is sent as the
words of a head and a payload opens as that head and that payload, with nothing but zeroes behind
it, and only what is shorter than a head is refused as too short.
-/

import NicScope.Proofs.Wire.ReadBack
import NicScope.Wire.Request

namespace NicScope

/-! ### Words -/

namespace Bytes

theorem toNat_zeroes (count : Nat) : toNat (List.replicate count 0) = 0 := by
  induction count with
  | zero => rfl
  | succ count inductionHypothesis =>
    rw [List.replicate_succ, toNat, inductionHypothesis]
    rfl

theorem toNat_append_zeroes (bytes : Bytes) (count : Nat) :
    toNat (bytes ++ List.replicate count 0) = toNat bytes := by
  induction bytes with
  | nil => exact toNat_zeroes count
  | cons byte rest inductionHypothesis =>
    rw [List.cons_append, toNat, inductionHypothesis, toNat]

/-- In more digits than there are bytes, the others are zeroes. -/
theorem ofNat_toNat_of_le {bytes : Bytes} {width : Nat} (fits : bytes.length ≤ width) :
    ofNat width (toNat bytes) = bytes ++ List.replicate (width - bytes.length) 0 := by
  have filled := ofNat_toNat (bytes ++ List.replicate (width - bytes.length) 0)
  rwa [List.length_append, List.length_replicate, Nat.add_sub_cancel' fits,
    toNat_append_zeroes] at filled

/-- A word of at most four bytes has these bytes and zeroes behind them. -/
theorem ofNat_word {bytes : Bytes} (fits : bytes.length ≤ 4) :
    ofNat 4 (UInt32.ofNat (toNat bytes)).toNat =
      bytes ++ List.replicate (4 - bytes.length) 0 := by
  have small : toNat bytes < UInt32.size :=
    Nat.lt_of_lt_of_le (toNat_lt bytes) (Nat.pow_le_pow_right (by decide) fits)
  rw [UInt32.toNat_ofNat_of_lt' small, ofNat_toNat_of_le fits]

/-- How many zeroes fill up the last word of so many bytes. -/
def gap (length : Nat) : Nat :=
  4 * ((length + 3) / 4) - length

theorem length_lt_four {bytes : Bytes}
    (less : ∀ first second third fourth rest, bytes ≠ first :: second :: third :: fourth :: rest) :
    bytes.length < 4 := by
  match bytes, less with
  | [], _ => decide
  | [_], _ => exact Nat.le_add_left 2 2
  | [_, _], _ => exact Nat.le_add_left 3 1
  | [_, _, _], _ => exact Nat.le_refl 4
  | first :: second :: third :: fourth :: rest, less =>
    exact absurd rfl (less first second third fourth rest)

/-- Words hold the bytes that they were made of, and zeroes up to a whole word. -/
theorem ofWords_toWords (bytes : Bytes) :
    ofWords (toWords bytes) = bytes ++ List.replicate (gap bytes.length) 0 := by
  fun_induction toWords bytes with
  | case1 => rfl
  | case2 first second third fourth rest inductionHypothesis =>
    have same : gap (first :: second :: third :: fourth :: rest).length = gap rest.length := by
      simp only [gap, List.length_cons]
      omega
    have word := @ofNat_word [first, second, third, fourth] (Nat.le_refl 4)
    rw [ofWords, List.flatMap_cons, word, ← ofWords, inductionHypothesis, same]
    rfl
  | case3 short nonempty less =>
    have few := length_lt_four less
    have positive := List.length_pos_iff.mpr nonempty
    have left : gap short.length = 4 - short.length := by
      rw [gap]
      omega
    rw [ofWords, List.flatMap_singleton, ofNat_word (Nat.le_of_lt few), left]

theorem length_ofWords (words : List UInt32) : (ofWords words).length = 4 * words.length := by
  induction words with
  | nil => rfl
  | cons word rest inductionHypothesis =>
    rw [ofWords, List.flatMap_cons, ← ofWords, List.length_append, length_ofNat,
      inductionHypothesis, List.length_cons, Nat.mul_succ, Nat.add_comm]

theorem length_toWords (bytes : Bytes) : (toWords bytes).length = (bytes.length + 3) / 4 := by
  have total := congrArg List.length (ofWords_toWords bytes)
  rw [length_ofWords, List.length_append, List.length_replicate, gap] at total
  omega

end Bytes

/-! ### Fields -/

theorem Field.layOut_append (fields others : List Field) :
    Field.layOut (fields ++ others) = Field.layOut fields ++ Field.layOut others :=
  List.flatMap_append

theorem Field.bytes_byte (value : UInt8) : (Field.byte value).bytes = [value] := by
  rw [Field.bytes, Bytes.ofNat, UInt8.ofNat_toNat, Bytes.ofNat]

theorem Field.layOut_bytes (values : Bytes) : Field.layOut (values.map Field.byte) = values := by
  induction values with
  | nil => rfl
  | cons value rest inductionHypothesis =>
    rw [List.map_cons, Field.layOut_cons, Field.bytes_byte, inductionHypothesis,
      List.singleton_append]

theorem Cursor.array_append {count : Nat} (position : Nat) (values : Vector UInt8 count)
    (rest : Bytes) :
    (Cursor.array count).run ⟨position, values.toList ++ rest⟩ =
      (.ok values, ⟨position + count, rest⟩) := by
  have taken := bytes_append position values.toList rest
  rw [Vector.length_toList] at taken
  have same : (Vector.ofFn fun index : Fin count => values.toList.getD index 0) = values := by
    ext index inside
    simp
  rw [Cursor.array, Reading.run_bind_of_ok taken, Reading.run_pure, same]

/-! ### Requests -/

instance : LawfulLayout PciAddress where
  length_bytes _ := Field.length_layOut _
  read_bytes address position rest := by
    simp only [Layout.bytes, Layout.fields, Field.layOut_cons, List.append_assoc]
    simp only [Layout.read, Reading.run_bind_of_ok (Cursor.word_append _ _ _), Reading.run_pure]
    rfl

instance : LawfulLayout PortRequest where
  length_bytes request := by
    simp only [Layout.bytes, Layout.fields, Field.layOut_append, Field.layOut_bytes,
      List.length_append, Field.length_layOut, Vector.length_toList]
    rfl
  read_bytes request position rest := by
    have bytes : Layout.bytes request = Layout.bytes request.address ++
        ((Field.byte request.block).bytes ++ ((Field.byte request.unicast).bytes ++
          (request.reserved.toList ++ (Field.word request.entry).bytes))) := by
      change Field.layOut (_ ++ _ ++ _ ++ _) = _
      rw [Field.layOut_append, Field.layOut_append, Field.layOut_append, Field.layOut_bytes]
      simp [Field.layOut, Layout.bytes]
    rw [bytes]
    simp only [List.append_assoc]
    refine (Reading.run_bind_of_ok (LawfulLayout.read_bytes request.address _ _) _).trans ?_
    refine (Reading.run_bind_of_ok (Cursor.byte_append _ _ _) _).trans ?_
    refine (Reading.run_bind_of_ok (Cursor.byte_append _ _ _) _).trans ?_
    refine (Reading.run_bind_of_ok (Cursor.array_append _ _ _) _).trans ?_
    exact Reading.run_bind_of_ok (Cursor.word_append _ _ _) _

instance : LawfulLayout DirectorRequest where
  length_bytes _ := Field.length_layOut _
  read_bytes request position rest := by
    have bytes : Layout.bytes request = Layout.bytes request.address ++
        ((Field.byte request.block).bytes ++ ((Field.byte request.stage).bytes ++
          ((Field.byte request.single).bytes ++ ((Field.byte request.reserved).bytes ++
            (Field.word request.entry).bytes)))) := by
      change Field.layOut (_ ++ _) = _
      rw [Field.layOut_append]
      simp [Field.layOut, Layout.bytes]
    rw [bytes]
    simp only [List.append_assoc]
    refine (Reading.run_bind_of_ok (LawfulLayout.read_bytes request.address _ _) _).trans ?_
    refine (Reading.run_bind_of_ok (Cursor.byte_append _ _ _) _).trans ?_
    refine (Reading.run_bind_of_ok (Cursor.byte_append _ _ _) _).trans ?_
    refine (Reading.run_bind_of_ok (Cursor.byte_append _ _ _) _).trans ?_
    refine (Reading.run_bind_of_ok (Cursor.byte_append _ _ _) _).trans ?_
    exact Reading.run_bind_of_ok (Cursor.word_append _ _ _) _

instance : LawfulLayout ScalingRequest where
  length_bytes request := by
    simp only [Layout.bytes, Layout.fields, Field.layOut_append, Field.layOut_bytes,
      List.length_append, Field.length_layOut, Vector.length_toList]
    rfl
  read_bytes request position rest := by
    have bytes : Layout.bytes request = Layout.bytes request.address ++
        ((Field.byte request.block).bytes ++ request.reserved.toList) := by
      change Field.layOut (_ ++ _ ++ _) = _
      rw [Field.layOut_append, Field.layOut_append, Field.layOut_bytes]
      simp [Field.layOut, Layout.bytes]
    rw [bytes]
    simp only [List.append_assoc]
    refine (Reading.run_bind_of_ok (LawfulLayout.read_bytes request.address _ _) _).trans ?_
    refine (Reading.run_bind_of_ok (Cursor.byte_append _ _ _) _).trans ?_
    exact Reading.run_bind_of_ok (Cursor.array_append _ _ _) _

/-- Fields are refused as a request exactly if they need more words than there may be. -/
theorem Request.ofFields_eq_error_iff {fields : List Field} {cause : WireError} :
    Request.ofFields fields = .error cause ↔
      32 < (Field.totalSize fields + 3) / 4 ∧
        cause = .requestTooLarge (.ofNat ((Field.totalSize fields + 3) / 4)) := by
  rw [Request.ofFields]
  split
  next large =>
    rw [Except.error.injEq, eq_comm]
    exact (and_iff_right large).symm
  next small => exact iff_of_false (fun same => by cases same) fun both => small both.1

/-- Words carry a request: they are what is sent for it, no more than there may be, they hold its
bytes and zeroes behind them, and they read back as the request. -/
structure Carries {α : Type} [Layout α] (words : List UInt32) (request : α) : Prop where
  encoded : Request.encode request = .ok words
  count : words.length = (Layout.size α + 3) / 4
  limit : words.length ≤ 32
  bytes : Bytes.ofWords words =
    Layout.bytes request ++ List.replicate (4 * words.length - Layout.size α) 0
  reads : (Layout.read : Reading α).run (Cursor.start (Bytes.ofWords words)) =
    (.ok request, ⟨Layout.size α, List.replicate (4 * words.length - Layout.size α) 0⟩)

/-- Requests of a type survive their words. -/
structure FramesRequests (α : Type) [Layout α] : Prop where
  carried : ∀ request : α, ∃ words, Carries words request
  distinct : ∀ request other : α, Request.encode request = Request.encode other → request = other

theorem exists_carries {α : Type} [Layout α] [LawfulLayout α] (small : Layout.size α ≤ 128)
    (request : α) : ∃ words, Carries words request := by
  have size := LawfulLayout.length_bytes request
  have count : (Bytes.toWords (Layout.bytes request)).length = (Layout.size α + 3) / 4 := by
    rw [Bytes.length_toWords, size]
  have bytes := Bytes.ofWords_toWords (Layout.bytes request)
  rw [size, Bytes.gap, ← count] at bytes
  refine ⟨Bytes.toWords (Layout.bytes request), Request.encode_of_le request ?_, count, ?_, bytes,
    ?_⟩
  · rwa [← Field.length_layOut, ← Layout.bytes, size]
  · omega
  · rw [bytes, Cursor.start, LawfulLayout.read_bytes, Nat.zero_add]

theorem framesRequests {α : Type} [Layout α] [LawfulLayout α] (small : Layout.size α ≤ 128) :
    FramesRequests α := by
  refine ⟨exists_carries small, fun request other same => ?_⟩
  obtain ⟨words, carries⟩ := exists_carries small request
  obtain ⟨others, carriesOther⟩ := exists_carries small other
  obtain rfl : words = others :=
    Except.ok.inj (carries.encoded.symm.trans (same.trans carriesOther.encoded))
  have read := carries.reads.symm.trans carriesOther.reads
  exact Except.ok.inj (congrArg Prod.fst read)

/-! ### Heads -/

/-- Blocks survive their words: what is sent for a head and a payload opens as both, with nothing
but zeroes behind the payload, and only what is shorter than a head is too short. -/
structure FramesBlocks (η : Type) [BlockHead η] : Prop where
  opened : ∀ (head : η) (payload : Bytes),
    decodeHead η (Bytes.ofWords (Bytes.toWords (Layout.bytes head ++ payload))) =
      .ok (head, payload ++ List.replicate (Bytes.gap (Layout.size η + payload.length)) 0)
  tooShort : ∀ bytes count, decodeHead η bytes = .error (.responseTooShort count) ↔
    bytes.length < Layout.size η ∧ count = .ofNat bytes.length

theorem framesBlocks (η : Type) [BlockHead η] [LawfulLayout η] : FramesBlocks η := by
  refine ⟨fun head payload => ?_, fun bytes count => ?_⟩
  · rw [Bytes.ofWords_toWords, List.length_append, LawfulLayout.length_bytes, List.append_assoc,
      decodeHead_bytes]
  · rw [decodeHead]
    split
    next short =>
      rw [Except.error.injEq, WireError.responseTooShort.injEq, and_iff_right short, eq_comm]
    next long =>
      refine iff_of_false (fun same => ?_) fun both => long both.1
      split at same
      · cases same
      · cases same

/-! ### Everything that is framed -/

/-- Every request and every address is carried by at most 32 words, which hold its bytes and zeroes
up to a whole word and read back as it, so different ones have different words; what is laid out in
fields is refused as a request exactly if it needs more than 32 words. Under each of the three heads
what is sent for a head and a payload opens as both, and only what is shorter than the head is too
short. -/
theorem framing_roundTrips :
    FramesRequests PortRequest ∧ FramesRequests DirectorRequest ∧ FramesRequests ScalingRequest ∧
      FramesRequests PciAddress ∧
      (∀ fields cause, Request.ofFields fields = .error cause ↔
        32 < (Field.totalSize fields + 3) / 4 ∧
          cause = .requestTooLarge (.ofNat ((Field.totalSize fields + 3) / 4))) ∧
      FramesBlocks PlainHead ∧ FramesBlocks EntryHead ∧ FramesBlocks DirectorHead := by
  refine ⟨framesRequests ?_, framesRequests ?_, framesRequests ?_, framesRequests ?_,
    fun _ _ => Request.ofFields_eq_error_iff, framesBlocks _, framesBlocks _, framesBlocks _⟩
  all_goals decide

end NicScope
