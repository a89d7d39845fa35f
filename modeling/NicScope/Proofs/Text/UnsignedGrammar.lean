/-
This file gives the grammar of unsigned values on a command line and proves that reading a parameter
accepts exactly its texts. A text is empty, or it is blanks, a sign and a body; the body is in base
sixteen behind a zero and an x, in base eight behind a zero, else in base ten and begins with no
other zero. The value is the exact number of the body, which must fit a word and be zero behind a
minus; every other text is refused with the same complaint. So each way of writing a word down reads
back as that word.
-/

import NicScope.Options
import NicScope.Proofs.Text.DigitReading

namespace NicScope.Unsigned

open Numeral

/-! ### The grammar -/

/-- What stands behind blanks and sign, with the number that it is. -/
inductive Body : List Char → Nat → Prop
  | hexadecimal {mark : Char} {text : List Char} {number : Nat} (marked : mark = 'x' ∨ mark = 'X')
      (written : Writes 16 text number) : Body ('0' :: mark :: text) number
  | octal {text : List Char} {number : Nat} (written : Writes 8 text number) :
      Body ('0' :: text) number
  | zero : Body ['0'] 0
  | decimal {first : Char} {text : List Char} {number : Nat} (plain : first ≠ '0')
      (written : Writes 10 (first :: text) number) : Body (first :: text) number

/-- A sign, and whether it is a minus. -/
inductive Sign : List Char → Bool → Prop
  | absent : Sign [] false
  | plus : Sign ['+'] false
  | minus : Sign ['-'] true

/-- A text is a way to give a value. -/
inductive Spells : List Char → UInt32 → Prop
  | empty : Spells [] 0
  | signed {blanks mark body : List Char} {negative : Bool} {value : UInt32}
      (blank : ∀ character ∈ blanks, Blank.isBlank character = true) (sign : Sign mark negative)
      (exact : Body body value.toNat) (unsigned : negative = true → value = 0) :
      Spells (blanks ++ (mark ++ body)) value

variable {text body : List Char} {number : Nat} {value : UInt32}

/-! ### Bodies -/

/-- A body begins with a digit, so neither with a blank nor with a sign. -/
theorem Body.head (body : Body text number) :
    ∃ first rest, text = first :: rest ∧
      Blank.isBlank first = false ∧ first ≠ '-' ∧ first ≠ '+' := by
  have plain : ∀ digit ∈ smallDigits ++ capitalDigits,
      (!Blank.isBlank digit && (digit != '-' && digit != '+')) = true := List.all_eq_true.mp rfl
  simp only [Bool.and_eq_true, Bool.not_eq_true', bne_iff_ne] at plain
  cases body with
  | hexadecimal => exact ⟨_, _, rfl, by decide⟩
  | octal => exact ⟨_, _, rfl, by decide⟩
  | zero => exact ⟨_, _, rfl, by decide⟩
  | decimal _ written =>
    obtain ⟨first, rest, value, same, digit⟩ := written.head
    refine ⟨first, rest, same, plain first ?_⟩
    obtain ⟨_, small | capital⟩ := digit
    · exact List.mem_append_left _ (List.mem_of_getElem? small)
    · exact List.mem_append_right _ (List.mem_of_getElem? capital)

/-- A digit in base eight is no mark of base sixteen. -/
theorem ne_mark_of_octal {character : Char} {value : Nat} (digit : IsDigit 8 character value) :
    character ≠ 'x' ∧ character ≠ 'X' := by
  have none : digitValue? 8 'x' = none ∧ digitValue? 8 'X' = none := by decide
  have read := digit.digitValue? (by decide)
  constructor
  · rintro rfl
    cases none.1.symm.trans read
  · rintro rfl
    cases none.2.symm.trans read

theorem body_of_magnitude? (read : magnitude? text = some value) : Body text value.toNat := by
  unfold magnitude? at read
  split at read
  next rest => exact .hexadecimal (.inl rfl) ((readWord?_eq_some_iff (by decide)).mp read)
  next rest => exact .hexadecimal (.inr rfl) ((readWord?_eq_some_iff (by decide)).mp read)
  next digit rest _ _ => exact .octal ((readWord?_eq_some_iff (by decide)).mp read)
  next other =>
    have written := (readWord?_eq_some_iff (by decide)).mp read
    obtain ⟨first, rest, _, rfl, _⟩ := written.head
    by_cases zero : first = '0'
    · subst zero
      -- A zero with anything behind it is read in another base.
      cases rest with
      | nil =>
        have zero : readWord? 10 ['0'] = some 0 := by decide
        obtain rfl := Option.some.inj (read.symm.trans zero)
        exact .zero
      | cons digit rest => exact absurd rfl (other digit rest)
    · exact .decimal zero written

theorem magnitude?_of_body (body : Body text number) (exact : value.toNat = number) :
    magnitude? text = some value := by
  cases body with
  | hexadecimal marked written =>
    have read := (readWord?_eq_some_iff (by decide)).mpr (exact ▸ written)
    obtain rfl | rfl := marked
    · exact read
    · exact read
  | octal written =>
    have read := (readWord?_eq_some_iff (by decide)).mpr (exact ▸ written)
    obtain ⟨first, rest, _, rfl, digit⟩ := written.head
    obtain ⟨small, capital⟩ := ne_mark_of_octal digit
    rw [magnitude?]
    · exact read
    · exact small
    · exact capital
  | zero =>
    obtain rfl : value = 0 := UInt32.toNat_inj.mp exact
    decide
  | decimal plain written =>
    have read := (readWord?_eq_some_iff (by decide)).mpr (exact ▸ written)
    rw [magnitude?]
    · exact read
    · exact fun _ same => plain (List.cons.inj same).1
    · exact fun _ same => plain (List.cons.inj same).1
    · exact fun _ _ same => plain (List.cons.inj same).1

/-! ### Whole texts -/

/-- A sign is taken off, and what stands behind it is left as it is. -/
theorem exists_sign (text : List Char) :
    ∃ mark, Sign mark (splitSign text).1 ∧ text = mark ++ (splitSign text).2 := by
  unfold splitSign
  split
  · exact ⟨_, .minus, rfl⟩
  · exact ⟨_, .plus, rfl⟩
  · exact ⟨_, .absent, rfl⟩

theorem splitSign_append {mark : List Char} {negative : Bool} (sign : Sign mark negative)
    (body : Body text number) : splitSign (mark ++ text) = (negative, text) := by
  obtain ⟨first, rest, rfl, _, minus, plus⟩ := body.head
  cases sign with
  | absent =>
    rw [List.nil_append, splitSign]
    · exact fun _ same => minus (List.cons.inj same).1
    · exact fun _ same => plus (List.cons.inj same).1
  | plus => rfl
  | minus => rfl

/-- Blanks are taken off up to the sign or the body. -/
theorem trimStart_append {blanks mark : List Char} {negative : Bool}
    (blank : ∀ character ∈ blanks, Blank.isBlank character = true) (sign : Sign mark negative)
    (body : Body text number) : Blank.trimStart (blanks ++ (mark ++ text)) = mark ++ text := by
  obtain ⟨first, rest, rfl, plain, _, _⟩ := body.head
  rw [Blank.trimStart, List.dropWhile_append_of_pos blank]
  cases sign with
  | absent => exact List.dropWhile_cons_of_neg (by rw [plain]; decide)
  | plus => exact List.dropWhile_cons_of_neg (by decide)
  | minus => exact List.dropWhile_cons_of_neg (by decide)

/-- A text that is not empty is read as its body, which must be zero behind a minus. -/
theorem parse?_eq_some_iff_of_ne_nil (nonempty : text ≠ []) :
    parse? text = some value ↔
      magnitude? (splitSign (Blank.trimStart text)).2 = some value ∧
        ((splitSign (Blank.trimStart text)).1 = true → value = 0) := by
  rw [parse?, if_neg (by simpa using nonempty)]
  dsimp only
  cases magnitude? (splitSign (Blank.trimStart text)).2 with
  | none => exact iff_of_false nofun nofun
  | some read =>
    cases (splitSign (Blank.trimStart text)).1 with
    | false => simp
    | true =>
      dsimp only
      rw [Option.ite_none_left_eq_some, Bool.true_and, bne_iff_ne, not_not, Option.some_inj]
      constructor
      · rintro ⟨zero, rfl⟩
        exact ⟨rfl, fun _ => zero⟩
      · rintro ⟨rfl, zero⟩
        exact ⟨zero rfl, rfl⟩

theorem spells_of_parse? (read : parse? text = some value) : Spells text value := by
  cases text with
  | nil =>
    obtain rfl := Option.some.inj read
    exact .empty
  | cons first rest =>
    obtain ⟨exact, unsigned⟩ := (parse?_eq_some_iff_of_ne_nil (List.cons_ne_nil _ _)).mp read
    obtain ⟨mark, sign, signed⟩ := exists_sign (Blank.trimStart (first :: rest))
    have blank : ∀ character ∈ (first :: rest).takeWhile Blank.isBlank,
        Blank.isBlank character = true := List.all_eq_true.mp List.all_takeWhile
    have whole : (first :: rest).takeWhile Blank.isBlank ++ Blank.trimStart (first :: rest) =
        first :: rest := List.takeWhile_append_dropWhile
    rw [← whole, signed]
    exact .signed blank sign (body_of_magnitude? exact) unsigned

theorem parse?_of_spells (spells : Spells text value) : parse? text = some value := by
  cases spells with
  | empty => rfl
  | signed blank sign exact unsigned =>
    obtain ⟨first, rest, rfl, _⟩ := exact.head
    rw [parse?_eq_some_iff_of_ne_nil (by simp), trimStart_append blank sign exact,
      splitSign_append sign exact]
    exact ⟨magnitude?_of_body exact rfl, unsigned⟩

theorem parse?_eq_some_iff : parse? text = some value ↔ Spells text value :=
  ⟨spells_of_parse?, parse?_of_spells⟩

/-! ### Ways to write a word -/

/-- How a word can be written down. -/
inductive Style where
  | decimal
  | octal (zeros : Nat)
  /-- With the mark and with any of the letters small or capital. -/
  | hexadecimal (mark : Bool) (capital : Nat → Bool) (zeros : Nat)

/-- The body that a word has in a style. -/
def Style.write : Style → UInt32 → List Char
  | decimal, value => digits 10 value.toNat
  | octal zeros, value => '0' :: (List.replicate zeros '0' ++ digits 8 value.toNat)
  | hexadecimal mark capital zeros, value =>
    '0' :: (if mark then 'X' else 'x') :: (List.replicate zeros '0' ++
      (digits 16 value.toNat).mapIdx fun place digit =>
        if capital place then digit.toUpper else digit)

theorem Style.body_write (style : Style) (value : UInt32) :
    Body (style.write value) value.toNat := by
  cases style with
  | decimal =>
    obtain zero | positive := Nat.eq_zero_or_pos value.toNat
    · rw [Style.write, zero]
      exact .zero
    · have written : Writes 10 (digits 10 value.toNat) value.toNat :=
        writes_digits (by decide) (by decide) _
      obtain ⟨first, rest, same, plain⟩ :
          ∃ first rest, digits 10 value.toNat = first :: rest ∧ first ≠ '0' :=
        digits_head (by decide) positive
      rw [Style.write, same]
      exact .decimal plain (same ▸ written)
  | octal zeros =>
    exact .octal ((writes_digits (by decide) (by decide) _).behind_zeros (by decide) zeros)
  | hexadecimal mark capital zeros =>
    have written : Writes 16 (digits 16 value.toNat) value.toNat :=
      writes_digits (by decide) (by decide) _
    have recased := written.recased capital
    refine .hexadecimal ?_ (recased.behind_zeros (by decide) zeros)
    cases mark with
    | false => exact .inl rfl
    | true => exact .inr rfl

/-- A word that is written down in any style reads back. -/
theorem Style.spells_write (style : Style) (value : UInt32) : Spells (style.write value) value := by
  have spells : Spells ([] ++ ([] ++ style.write value)) value :=
    .signed nofun .absent (style.body_write value) nofun
  exact spells

end NicScope.Unsigned

namespace NicScope

open Unsigned

/-- A parameter is read as a value exactly if it spells that value, and refused, always with the
same complaint, exactly if it spells none. Every word reads back from each way to write it down. -/
theorem unsignedParameter_reads (text : String) :
    (∀ value, unsignedParameter text = .ok value ↔ Spells text.toList value) ∧
    (∀ cause, unsignedParameter text = .error cause ↔
      cause = .invalidArgument ("invalid unsigned value '" ++ text ++ "'") ∧
        ∀ value, ¬ Spells text.toList value) ∧
    ∀ style value, unsignedParameter (String.ofList (Style.write style value)) = .ok value := by
  have accepts (text : String) (value : UInt32) :
      unsignedParameter text = .ok value ↔ Spells text.toList value := by
    rw [unsignedParameter, ← parse?_eq_some_iff]
    cases parse? text.toList with
    | none => exact iff_of_false nofun nofun
    | some read => rw [Except.ok.injEq, Option.some_inj]
  refine ⟨accepts text, fun cause => ?_, fun style value => ?_⟩
  · simp only [← accepts, unsignedParameter]
    cases parse? text.toList with
    | none =>
      constructor
      · rintro ⟨⟩
        exact ⟨rfl, nofun⟩
      · rintro ⟨rfl, _⟩
        rfl
    | some read => exact iff_of_false nofun fun both => both.2 read rfl
  · rw [accepts, String.toList_ofList]
    exact style.spells_write value

end NicScope
