/-
This file says what a run of digits writes, and proves that reading finds just that. A digit is
known by its place among the sixteen, where a letter may be small or capital; the number of a run is
the sum of its digits, each times the power of the base that belongs to its place. The digits that a
number is written with write that number, also behind zeroes and with any of them made capital.
-/

import Mathlib.Data.List.Forall2
import Mathlib.Data.Nat.Digits.Defs
import NicScope.Text.Numeral

namespace NicScope.Numeral

variable {base number value : Nat} {character : Char} {text : List Char}

/-! ### Digits -/

/-- The digits in the order of their values, with small letters. -/
def smallDigits : List Char :=
  ['0', '1', '2', '3', '4', '5', '6', '7', '8', '9', 'a', 'b', 'c', 'd', 'e', 'f']

/-- The digits in the order of their values, with capital letters. -/
def capitalDigits : List Char :=
  ['0', '1', '2', '3', '4', '5', '6', '7', '8', '9', 'A', 'B', 'C', 'D', 'E', 'F']

/-- A character is the digit of a value in a base. -/
def IsDigit (base : Nat) (character : Char) (value : Nat) : Prop :=
  value < base ∧ (smallDigits[value]? = some character ∨ capitalDigits[value]? = some character)

/-- A digit is read as the value at whose place it stands. -/
theorem IsDigit.digitValue? (digit : IsDigit base character value) (small : base ≤ 16) :
    digitValue? base character = some value := by
  have smallLetters : ∀ base ≤ 16, ∀ value < base,
      smallDigits[value]?.bind (Numeral.digitValue? base) = some value := by decide
  have capitalLetters : ∀ base ≤ 16, ∀ value < base,
      capitalDigits[value]?.bind (Numeral.digitValue? base) = some value := by decide
  obtain ⟨inside, placed | placed⟩ := digit
  · have read := smallLetters base small value inside
    rwa [placed] at read
  · have read := capitalLetters base small value inside
    rwa [placed] at read

/-- Where the places of digits are counted from a code, each character stands at its own. -/
theorem placed_of_codes {digits : List Char} (first last shift : Nat)
    (codes : ∀ code ≤ last, first ≤ code →
      digits[code - first + shift]? = some (Char.ofNat code))
    (range : first ≤ character.toNat ∧ character.toNat ≤ last) :
    digits[character.toNat - first + shift]? = some character := by
  rw [codes _ range.2 range.1, Char.ofNat_toNat]

/-- What is read as a digit stands at the place of its value. -/
theorem isDigit_of_digitValue? (read : digitValue? base character = some value) :
    IsDigit base character value := by
  obtain ⟨inside, same⟩ := Option.ite_none_right_eq_some.mp read
  obtain rfl := Option.some.inj same
  refine ⟨inside, ?_⟩
  by_cases numeral : '0' ≤ character ∧ character ≤ '9'
  · rw [if_pos numeral]
    exact .inl (placed_of_codes 48 57 0 (by decide) numeral)
  · rw [if_neg numeral] at inside ⊢
    by_cases small : 'a' ≤ character ∧ character ≤ 'f'
    · rw [if_pos small]
      exact .inl (placed_of_codes 97 102 10 (by decide) small)
    · rw [if_neg small] at inside ⊢
      by_cases capital : 'A' ≤ character ∧ character ≤ 'F'
      · rw [if_pos capital]
        exact .inr (placed_of_codes 65 70 10 (by decide) capital)
      · rw [if_neg capital] at inside
        exact absurd inside (Nat.lt_irrefl base)

theorem digitValue?_eq_some_iff (small : base ≤ 16) :
    digitValue? base character = some value ↔ IsDigit base character value :=
  ⟨isDigit_of_digitValue?, fun digit => digit.digitValue? small⟩

/-! ### Runs of digits -/

/-- A run of digits writes a number: the sum of the digits, each times the power of the base that
belongs to its place. -/
def Writes (base : Nat) (text : List Char) (number : Nat) : Prop :=
  text ≠ [] ∧ ∃ values, List.Forall₂ (IsDigit base) text values ∧
    Nat.ofDigits base values.reverse = number

/-- Going on with further digits moves what has been read up by their places. -/
theorem continueDigits?_eq_some_iff (small : base ≤ 16) {total : Nat} :
    continueDigits? base total text = some number ↔
      ∃ values, List.Forall₂ (IsDigit base) text values ∧
        Nat.ofDigits base values.reverse + base ^ values.length * total = number := by
  induction text generalizing total with
  | nil => simp [continueDigits?]
  | cons digit rest inductionHypothesis =>
    rw [continueDigits?]
    cases read : digitValue? base digit with
    | none =>
      refine iff_of_false nofun ?_
      rintro ⟨_, each, _⟩
      cases each with
      | cons first _ => cases read.symm.trans ((digitValue?_eq_some_iff small).mpr first)
    | some value =>
      have moved (values : List Nat) :
          Nat.ofDigits base (value :: values).reverse + base ^ (value :: values).length * total =
            Nat.ofDigits base values.reverse + base ^ values.length * (base * total + value) := by
        rw [Nat.ofDigits_reverse_cons, List.length_cons, Nat.pow_succ]
        ring
      constructor
      · intro further
        obtain ⟨values, each, sum⟩ := inductionHypothesis.mp further
        have first := (digitValue?_eq_some_iff small).mp read
        exact ⟨value :: values, .cons first each, (moved values).trans sum⟩
      · rintro ⟨_, each, sum⟩
        cases each with
        | cons first each =>
          have same := read.symm.trans ((digitValue?_eq_some_iff small).mpr first)
          obtain rfl := Option.some.inj same
          exact inductionHypothesis.mpr ⟨_, each, (moved _).symm.trans sum⟩

theorem readDigits?_eq_some_iff (small : base ≤ 16) :
    readDigits? base text = some number ↔ Writes base text number := by
  rw [readDigits?, Writes]
  cases text with
  | nil => simp
  | cons digit rest => simp [continueDigits?_eq_some_iff small]

/-- A run is read as a word if the word is the number that it writes. -/
theorem readWord?_eq_some_iff (small : base ≤ 16) {word : UInt32} :
    readWord? base text = some word ↔ Writes base text word.toNat := by
  rw [readWord?, ← readDigits?_eq_some_iff small]
  cases readDigits? base text with
  | none => exact iff_of_false nofun nofun
  | some number =>
    rw [Option.some_inj, Option.ite_none_right_eq_some, Option.some_inj]
    constructor
    · rintro ⟨inside, rfl⟩
      exact (UInt32.toNat_ofNat_of_lt' inside).symm
    · rintro rfl
      exact ⟨word.toNat_lt, UInt32.ofNat_toNat⟩

/-! ### Writing -/

/-- The first character of a run is a digit. -/
theorem Writes.head (written : Writes base text number) :
    ∃ first rest value, text = first :: rest ∧ IsDigit base first value := by
  obtain ⟨nonempty, _, each, _⟩ := written
  cases each with
  | nil => exact absurd rfl nonempty
  | cons first _ => exact ⟨_, _, _, rfl, first⟩

theorem writes_digit (digit : IsDigit base character value) : Writes base [character] value :=
  ⟨List.cons_ne_nil _ _, [value], .cons digit .nil, Nat.ofDigits_singleton⟩

/-- One digit more moves the number up by one place. -/
theorem Writes.snoc (written : Writes base text number) (digit : IsDigit base character value) :
    Writes base (text ++ [character]) (base * number + value) := by
  obtain ⟨_, values, each, rfl⟩ := written
  refine ⟨List.append_ne_nil_of_right_ne_nil _ (List.cons_ne_nil _ _), values ++ [value],
    List.rel_append each (.cons digit .nil), ?_⟩
  rw [List.reverse_append, List.reverse_singleton, List.singleton_append, Nat.ofDigits_cons,
    Nat.add_comm]

/-- Of two runs one behind the other the first counts in the places in front of the second. -/
theorem Writes.append {more : List Char} {last : Nat} (front : Writes base text number)
    (behind : Writes base more last) :
    Writes base (text ++ more) (base ^ more.length * number + last) := by
  obtain ⟨nonempty, values, each, rfl⟩ := front
  obtain ⟨_, others, rest, rfl⟩ := behind
  refine ⟨List.append_ne_nil_of_left_ne_nil nonempty _, values ++ others,
    List.rel_append each rest, ?_⟩
  rw [List.reverse_append, Nat.ofDigits_append, List.length_reverse, rest.length_eq, Nat.add_comm]

theorem isDigit_digitChar (small : base ≤ 16) (inside : value < base) :
    IsDigit base value.digitChar value := by
  have places : ∀ value < 16, smallDigits[value]? = some value.digitChar := by decide
  exact ⟨inside, .inl (places value (inside.trans_le small))⟩

/-- The digits of a number write it. -/
theorem writes_digits (proper : 1 < base) (small : base ≤ 16) (number : Nat) :
    Writes base (digits base number) number := by
  induction number using Nat.strongRecOn with
  | ind number inductionHypothesis =>
    by_cases single : number < base
    · rw [digits, Nat.toDigits_of_lt_base single]
      exact writes_digit (isDigit_digitChar small single)
    · have least := Nat.not_lt.mp single
      have front := inductionHypothesis (number / base)
        (Nat.div_lt_self (Nat.zero_lt_of_lt proper |>.trans_le least) proper)
      have last := isDigit_digitChar small (Nat.mod_lt number (Nat.zero_lt_of_lt proper))
      rw [digits, Nat.toDigits_of_base_le proper least]
      have whole := front.snoc last
      rwa [Nat.div_add_mod] at whole

/-- The digits of a number begin with a zero only if it is zero. -/
theorem digits_head (proper : 1 < base) (positive : 0 < number) :
    ∃ first rest, digits base number = first :: rest ∧ first ≠ '0' := by
  induction number using Nat.strongRecOn with
  | ind number inductionHypothesis =>
    by_cases single : number < base
    · refine ⟨_, _, Nat.toDigits_of_lt_base single, fun zero => ?_⟩
      exact Nat.ne_of_gt positive (Nat.digitChar_eq_zero.mp zero)
    · have least := Nat.not_lt.mp single
      obtain ⟨first, rest, front, other⟩ :=
        inductionHypothesis (number / base) (Nat.div_lt_self positive proper)
          (Nat.div_pos least (Nat.zero_lt_of_lt proper))
      refine ⟨first, rest ++ [(number % base).digitChar], ?_, other⟩
      rw [digits, Nat.toDigits_of_base_le proper least, ← digits, front, List.cons_append]

/-- Zeroes in front of a run change nothing. -/
theorem Writes.behind_zeros (positive : 0 < base) (written : Writes base text number)
    (zeros : Nat) :
    Writes base (List.replicate zeros '0' ++ text) number := by
  induction zeros with
  | zero => exact written
  | succ zeros inductionHypothesis =>
    obtain ⟨_, values, each, rfl⟩ := inductionHypothesis
    refine ⟨List.cons_ne_nil _ _, 0 :: values, .cons ⟨positive, .inl rfl⟩ each, ?_⟩
    rw [Nat.ofDigits_reverse_cons, Nat.mul_zero, Nat.add_zero]

theorem writes_paddedDigits (proper : 1 < base) (small : base ≤ 16) (width number : Nat) :
    Writes base (paddedDigits base width number) number :=
  (writes_digits proper small number).behind_zeros (Nat.zero_lt_of_lt proper) _

/-- A number that has no more digits than the width is written with just so many. -/
theorem length_paddedDigits (proper : 1 < base) {width : Nat} (positive : 0 < width)
    (inside : number < base ^ width) : (paddedDigits base width number).length = width := by
  have few : (digits base number).length ≤ width :=
    (Nat.length_toDigits_le_iff proper positive).mpr inside
  rw [paddedDigits, List.length_append, List.length_replicate, Nat.sub_add_cancel few]

theorem IsDigit.toUpper (digit : IsDigit base character value) :
    IsDigit base character.toUpper value := by
  have capitalized : ∀ digits ∈ [smallDigits, capitalDigits],
      digits.map Char.toUpper = capitalDigits := by decide
  have placed : capitalDigits[value]? = some character.toUpper := by
    obtain ⟨_, small | capital⟩ := digit
    · rw [← capitalized smallDigits (by decide), List.getElem?_map, small, Option.map_some]
    · rw [← capitalized capitalDigits (by decide), List.getElem?_map, capital, Option.map_some]
  exact ⟨digit.1, .inr placed⟩

/-- A run of which any letters are made capital writes the same number. -/
theorem Writes.recased (written : Writes base text number) (capital : Nat → Bool) :
    Writes base (text.mapIdx fun place digit => if capital place then digit.toUpper else digit)
      number := by
  obtain ⟨nonempty, values, each, sum⟩ := written
  refine ⟨by simpa using nonempty, values, ?_, sum⟩
  clear nonempty sum
  induction each generalizing capital with
  | nil => exact .nil
  | cons digit _ inductionHypothesis =>
    rw [List.mapIdx_cons]
    refine .cons ?_ (inductionHypothesis fun place => capital (place + 1))
    split
    · exact digit.toUpper
    · exact digit

end NicScope.Numeral
