/-
Texts without the sign that the first and the last line of a dump are drawn with. Putting such
texts together gives such a text, and no number has the sign among its digits.
-/

import NicScope.Command.Dump
import NicScope.Text.Column
import NicScope.Text.Numeral

namespace NicScope

open Numeral

/-- A text that has no number sign. -/
def Unmarked (text : String) : Prop :=
  '#' ∉ text.toList

instance (text : String) : Decidable (Unmarked text) :=
  inferInstanceAs (Decidable ('#' ∉ text.toList))

/-! ### Putting texts together -/

@[simp]
theorem unmarked_append {text more : String} :
    Unmarked (text ++ more) ↔ Unmarked text ∧ Unmarked more := by
  rw [Unmarked, String.toList_append, List.mem_append, not_or]
  rfl

/-- Texts none of which has a number sign. -/
def AllUnmarked (texts : List String) : Prop :=
  ∀ text ∈ texts, Unmarked text

@[simp]
theorem allUnmarked_nil : AllUnmarked [] :=
  List.forall_mem_nil _

@[simp]
theorem allUnmarked_cons {text : String} {texts : List String} :
    AllUnmarked (text :: texts) ↔ Unmarked text ∧ AllUnmarked texts :=
  List.forall_mem_cons

@[simp]
theorem allUnmarked_append {texts more : List String} :
    AllUnmarked (texts ++ more) ↔ AllUnmarked texts ∧ AllUnmarked more :=
  List.forall_mem_append

@[simp]
theorem allUnmarked_map {α : Type} {items : List α} {render : α → String} :
    AllUnmarked (items.map render) ↔ ∀ item ∈ items, Unmarked (render item) :=
  List.forall_mem_map

@[simp]
theorem allUnmarked_flatMap {α : Type} {items : List α} {render : α → List String} :
    AllUnmarked (items.flatMap render) ↔ ∀ item ∈ items, AllUnmarked (render item) :=
  List.forall_mem_flatMap

theorem AllUnmarked.getD {texts : List String} (all : AllUnmarked texts) {absent : String}
    (clear : Unmarked absent) (index : Nat) : Unmarked (texts.getD index absent) := by
  rw [List.getD_eq_getElem?_getD]
  cases found : texts[index]? with
  | none => exact clear
  | some text => exact all text (List.mem_of_getElem? found)

@[simp]
theorem unmarked_join {texts : List String} :
    Unmarked (String.join texts) ↔ AllUnmarked texts := by
  rw [Unmarked, String.toList_join, List.mem_flatMap]
  exact ⟨fun clear text member marked => clear ⟨text, member, marked⟩,
    fun clear ⟨text, member, marked⟩ => clear text member marked⟩

theorem unmarked_intercalate {separator : String} (plain : Unmarked separator)
    {texts : List String} (all : AllUnmarked texts) :
    Unmarked (separator.intercalate texts) := by
  induction texts with
  | nil => exact List.not_mem_nil
  | cons first rest inductionHypothesis =>
    obtain ⟨here, there⟩ := allUnmarked_cons.mp all
    cases rest with
    | nil => exact here
    | cons second others =>
      rw [String.intercalate_cons_cons, unmarked_append, unmarked_append]
      exact ⟨⟨here, plain⟩, inductionHypothesis there⟩

@[simp]
theorem unmarked_lines {texts : List String} : Unmarked (Dump.lines texts) ↔ AllUnmarked texts := by
  have ended : Unmarked "\n" := by decide
  rw [Dump.lines, unmarked_join, allUnmarked_map]
  exact forall₂_congr fun _ _ => unmarked_append.trans (and_iff_left ended)

/-- The text of a dump all of whose pieces of text are unmarked. -/
theorem unmarked_text {dump : Dump} (all : ∀ text, .text text ∈ dump → Unmarked text) :
    Unmarked dump.text := by
  refine unmarked_join.mpr (allUnmarked_map.mpr fun piece member => ?_)
  cases piece with
  | text text => exact all text member
  | note record => exact List.not_mem_nil

/-! ### Numbers -/

/-- The characters that digits are written with, and the one for what is no digit. -/
def digitSigns : List Char :=
  "0123456789abcdef*".toList

theorem digitChar_mem (digit : Nat) : Nat.digitChar digit ∈ digitSigns := by
  by_cases small : digit < 16
  · revert digit
    decide
  · rw [Nat.digitChar]
    iterate 16 rw [if_neg (by omega)]
    decide

section Digits

variable {sign : Char} (other : sign ∉ digitSigns)

include other

theorem not_mem_toDigitsCore {base fuel number : Nat} {behind : List Char}
    (clear : sign ∉ behind) : sign ∉ Nat.toDigitsCore base fuel number behind := by
  induction fuel generalizing number behind with
  | zero => exact clear
  | succ fuel inductionHypothesis =>
    have more : sign ∉ Nat.digitChar (number % base) :: behind :=
      List.not_mem_cons_of_ne_of_not_mem
        (fun same => other (same ▸ digitChar_mem (number % base))) clear
    rw [Nat.toDigitsCore]
    split
    · exact more
    · exact inductionHypothesis more

theorem not_mem_digits (base number : Nat) : sign ∉ digits base number :=
  not_mem_toDigitsCore other List.not_mem_nil

theorem not_mem_paddedDigits (base width number : Nat) :
    sign ∉ paddedDigits base width number := by
  rw [paddedDigits, List.mem_append, not_or]
  refine ⟨fun zero => ?_, not_mem_digits other base number⟩
  obtain rfl := List.eq_of_mem_replicate zero
  exact other (by decide)

end Digits

theorem unmarked_ofList {characters : List Char} (clear : '#' ∉ characters) :
    Unmarked (String.ofList characters) := by
  rwa [Unmarked, String.toList_ofList]

@[simp]
theorem unmarked_decimal (number : Nat) : Unmarked (decimal number) :=
  unmarked_ofList (not_mem_digits (by decide) 10 number)

@[simp]
theorem unmarked_hexadecimal (number : Nat) : Unmarked (hexadecimal number) :=
  unmarked_ofList (not_mem_digits (by decide) 16 number)

@[simp]
theorem unmarked_paddedDecimal (width number : Nat) : Unmarked (paddedDecimal width number) :=
  unmarked_ofList (not_mem_paddedDigits (by decide) 10 width number)

@[simp]
theorem unmarked_paddedHexadecimal (width number : Nat) :
    Unmarked (paddedHexadecimal width number) :=
  unmarked_ofList (not_mem_paddedDigits (by decide) 16 width number)

@[simp]
theorem unmarked_right {width : Nat} {text : String} (clear : Unmarked text) :
    Unmarked (Column.right width text) := by
  refine unmarked_append.mpr ⟨unmarked_ofList fun blank => ?_, clear⟩
  cases List.eq_of_mem_replicate blank

end NicScope
