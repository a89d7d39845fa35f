/-
This file settles which hardware the rules of the flow director are dumped from. The check
before the dump accepts hardware whose first stage has rules, whose stages with rules build
their keys from tuples, and whose keys have the width that the mode needs. It counts the bits of
a key in a word of sixteen bits, though, and the widest keys have one bit more than that: from
65512 key bits on, which are 8192 bytes in whole words, the width overflows. On such hardware the
check breaks off instead, whatever its mode needs.
-/

import Mathlib.Algebra.Order.Floor.Div
import NicScope.Proofs.Command.UnfitChoices

namespace NicScope

open Dialogue

/-! ### Widths in exact numbers -/

namespace DirectorResources

/-- The bytes of one key half: the whole bytes among its bits, rounded up to words of four. -/
def exactKeyBytes (resources : DirectorResources) : Nat :=
  4 * ((resources.keyBits.toNat / 8) ⌈/⌉ 4)

/-- The bits that a key half has room for. -/
def exactKeyBits (resources : DirectorResources) : Nat :=
  8 * resources.exactKeyBytes

/-- The key bits that the mode needs; an unknown mode needs none. -/
def activeBits (resources : DirectorResources) : Nat :=
  (resources.mode.keyBits?.getD 0).toNat

variable (resources : DirectorResources)

/-- The bytes of a key half never wrap. -/
theorem toNat_keyBytes : resources.keyBytes.toNat = resources.exactKeyBytes := by
  have bound := resources.keyBits.toNat_lt
  have eighth : (resources.keyBits / 8).toNat = resources.keyBits.toNat / 8 := rfl
  rw [keyBytes, exactKeyBytes, Nat.ceilDiv_eq_add_pred_div, UInt16.toNat_mul, UInt16.toNat_div,
    UInt16.toNat_add, eighth]
  change (resources.keyBits.toNat / 8 + 3) % 65536 / 4 * 4 % 65536 = _
  omega

/-- Their bits overflow a word of sixteen bits from 65512 key bits on, and only then. -/
theorem exactKeyBits_lt_iff : resources.exactKeyBits < UInt16.size ↔ resources.keyBits < 65512 := by
  have bound := resources.keyBits.toNat_lt
  have narrow : resources.keyBits < 65512 ↔ resources.keyBits.toNat < 65512 :=
    UInt16.lt_iff_toNat_lt
  have words : resources.exactKeyBytes = 4 * ((resources.keyBits.toNat / 8 + 4 - 1) / 4) := rfl
  rw [exactKeyBits, narrow, UInt16.size]
  omega

/-- No mode needs as many. -/
theorem activeBits_le_of_wide (wide : ¬ resources.keyBits < 65512) :
    resources.activeBits ≤ resources.exactKeyBits := by
  have many := Nat.not_lt.mp (mt resources.exactKeyBits_lt_iff.mp wide)
  exact Nat.le_trans (Nat.le_of_lt (resources.mode.keyBits?.getD 0).toNat_lt) many

end DirectorResources

namespace Director

variable {resources : DirectorResources}

/-! ### The checks one by one -/

theorem checkEntries_eq_ok_iff : checkEntries resources = .ok () ↔ resources.entries.get 0 ≠ 0 := by
  rw [checkEntries]
  split
  next none => exact iff_of_false nofun (not_not_intro none)
  next some => exact iff_of_true rfl some

theorem checkSelection_eq_ok_iff {stage : Fin 2} :
    checkSelection resources stage = .ok () ↔
      (resources.entries.get stage ≠ 0 → (resources.keys.get stage).selection = 1) := by
  have selected : ((resources.keys.get stage).keySelection == .tuple) = true ↔
      (resources.keys.get stage).selection = 1 := by
    rw [beq_iff_eq, StageKey.keySelection, KeySelection.ofCode]
    split
    next none => simp [none]
    next => split <;> simp [*]
  rw [checkSelection, ← selected, ← Decidable.or_iff_not_imp_left]
  split
  next good => exact iff_of_true rfl (by simpa using good)
  next bad => exact iff_of_false nofun (by simpa using bad)

/-- What the check of the width comes to, in exact numbers. -/
theorem checkWidth_eq : checkWidth resources =
    if resources.keyBits < 65512 then
      if resources.exactKeyBits < resources.activeBits then
        .error (.invalidArgument
          ("The active tcam bits(" ++ Numeral.decimal resources.activeBits ++
            ") is more than the max key bits(" ++ Numeral.decimal resources.exactKeyBits ++ ")."))
      else .ok ()
    else .error .overflow := by
  have bits : resources.keyBytes.toNat * 8 = resources.exactKeyBits := by
    rw [resources.toNat_keyBytes, DirectorResources.exactKeyBits, Nat.mul_comm]
  rw [checkWidth, bits, checkedBelow, DirectorResources.activeBits]
  by_cases narrow : resources.keyBits < 65512
  · rw [if_pos (resources.exactKeyBits_lt_iff.mpr narrow), if_pos narrow]
    rfl
  · rw [if_neg (mt resources.exactKeyBits_lt_iff.mp narrow), if_neg narrow]
    rfl

theorem checkWidth_eq_ok_iff : checkWidth resources = .ok () ↔
    resources.keyBits < 65512 ∧ resources.activeBits ≤ resources.exactKeyBits := by
  rw [checkWidth_eq]
  split
  next narrow =>
    rw [and_iff_right narrow, ← Nat.not_lt]
    split
    next more => exact iff_of_false nofun (not_not_intro more)
    next within => exact iff_of_true rfl within
  next wide => exact iff_of_false nofun fun fits => wide fits.1

theorem checkWidth_eq_overflow_iff :
    checkWidth resources = .error .overflow ↔ ¬ resources.keyBits < 65512 := by
  rw [checkWidth_eq]
  split
  next narrow =>
    refine iff_of_false ?_ (not_not_intro narrow)
    split <;> nofun
  next wide => exact iff_of_true rfl wide

theorem checkEntries_ne_overflow : checkEntries resources ≠ .error .overflow := by
  rw [checkEntries]
  split <;> nofun

theorem checkSelection_ne_overflow (stage : Fin 2) :
    checkSelection resources stage ≠ .error .overflow := by
  rw [checkSelection]
  split <;> nofun

/-! ### The check as a whole -/

/-- What the check before a dump of the rules comes to. -/
def rulesVerdict (resources : DirectorResources) : Except Error Unit := do
  checkEntries resources
  checkKeys resources

/-- The check asks nothing, and an unknown mode is only noted. -/
theorem held_checkHardware_rules_iff {steps : List (Query × Reply)} {outcome : Except Error Unit} :
    (checkHardware .rules resources).run.Held steps outcome ↔
      steps = [] ∧ outcome = rulesVerdict resources := by
  have done {result : Except Error Unit} :
      (Dialogue.done result : Dialogue Query Reply _).Held steps outcome ↔
        steps = [] ∧ outcome = result := by
    constructor
    · intro held
      cases held
      exact ⟨rfl, rfl⟩
    · rintro ⟨rfl, rfl⟩
      exact .done
  rw [checkHardware, rulesVerdict]
  cases checkEntries resources with
  | error cause => exact done
  | ok _ =>
    change Held (ExceptT.run (do
      if resources.mode.keyBits?.isNone then ExceptT.lift (Dialogue.note _)
      Fetch.fromExcept (checkKeys resources))) steps outcome ↔ _
    split
    · refine Iff.trans ⟨?_, .tell⟩ done
      intro held
      cases held with
      | tell rest => exact rest
    · exact done

/-! ### Hardware whose rules can be dumped -/

/-- Rules can be taken apart: there are rules in the first stage, every stage with rules builds
its keys from tuples, and a key half has room for the bits that the mode needs. -/
structure Readable (resources : DirectorResources) : Prop where
  rules : resources.entries.get 0 ≠ 0
  tuples : ∀ stage : Fin 2, resources.entries.get stage ≠ 0 →
    (resources.keys.get stage).selection = 1
  wide : resources.activeBits ≤ resources.exactKeyBits

theorem readable_iff : Readable resources ↔
    checkEntries resources = .ok () ∧ checkSelection resources 0 = .ok () ∧
      checkSelection resources 1 = .ok () ∧ resources.activeBits ≤ resources.exactKeyBits := by
  rw [checkEntries_eq_ok_iff, checkSelection_eq_ok_iff, checkSelection_eq_ok_iff]
  constructor
  · rintro ⟨rules, tuples, wide⟩
    exact ⟨rules, tuples 0, tuples 1, wide⟩
  · rintro ⟨rules, first, second, wide⟩
    exact ⟨rules, Fin.forall_fin_two.mpr ⟨first, second⟩, wide⟩

/-- What can be taken apart passes the check as long as its width is computed. -/
theorem rulesVerdict_eq_ok_iff_readable : rulesVerdict resources = .ok () ↔
    Readable resources ∧ resources.keyBits < 65512 := by
  have both {first second : Except Error Unit} :
      (first >>= fun _ => second) = .ok () ↔ first = .ok () ∧ second = .ok () := by
    cases first with
    | ok _ => exact (and_iff_right rfl).symm
    | error cause => exact iff_of_false nofun nofun
  rw [rulesVerdict, checkKeys, both, both, both, checkWidth_eq_ok_iff, readable_iff]
  tauto

/-- Where its width is not, the check breaks off if all else is as it has to be. -/
theorem rulesVerdict_eq_overflow_iff : rulesVerdict resources = .error .overflow ↔
    Readable resources ∧ ¬ resources.keyBits < 65512 := by
  have behind {first second : Except Error Unit} (never : first ≠ .error .overflow) :
      (first >>= fun _ => second) = .error .overflow ↔
        first = .ok () ∧ second = .error .overflow := by
    cases first with
    | ok _ => exact (and_iff_right rfl).symm
    | error cause => exact iff_of_false never nofun
  rw [rulesVerdict, checkKeys, behind checkEntries_ne_overflow,
    behind (checkSelection_ne_overflow 0), behind (checkSelection_ne_overflow 1),
    checkWidth_eq_overflow_iff, readable_iff]
  have wide := resources.activeBits_le_of_wide
  tauto

/-- The check accepts what can be taken apart as long as the bits of a key half have a number of
sixteen bits, that is below 65512 key bits. From there on it accepts nothing, and breaks off on
whatever else can be taken apart. -/
theorem checkHardware_rules (resources : DirectorResources) :
    resources.keyBytes.toNat = resources.exactKeyBytes ∧
      (resources.exactKeyBits < UInt16.size ↔ resources.keyBits < 65512) ∧
      ((checkHardware .rules resources).run.Held [] (.ok ()) ↔
        Readable resources ∧ resources.keyBits < 65512) ∧
      ((checkHardware .rules resources).run.Held [] (.error .overflow) ↔
        Readable resources ∧ ¬ resources.keyBits < 65512) := by
  refine ⟨resources.toNat_keyBytes, resources.exactKeyBits_lt_iff, ?_, ?_⟩
  · rw [held_checkHardware_rules_iff, and_iff_right rfl, eq_comm, rulesVerdict_eq_ok_iff_readable]
  · rw [held_checkHardware_rules_iff, and_iff_right rfl, eq_comm, rulesVerdict_eq_overflow_iff]

/-- A record of hardware with the widest keys there can be, in a mode that needs 400 bits. -/
def widestRecord : Bytes :=
  [0, 1, 0xff, 0xff, 1, 0, 0, 0, 0, 0, 0, 0, 8, 0, 0, 0] ++
    [0, 1, 0, 0, 0, 0, 0, 0, 0xff, 0xff, 0xff, 0xff, 0xff, 0xff, 0xff, 0xff] ++
    [1, 1, 0, 0, 0, 0, 0, 0, 0xff, 0xff, 0xff, 0xff, 0xff, 0xff, 0xff, 0xff]

/-- What the record says. -/
def widestResources : DirectorResources where
  mode := .depth2kWidth400Stage1
  enabled := 1
  keyBits := 0xffff
  entries := #v[1, 0]
  counters := #v[8, 0]
  keys := #v[⟨0, 1, 0, 0, 0, 0, 0xffffffff, 0xffffffff⟩, ⟨1, 1, 0, 0, 0, 0, 0xffffffff, 0xffffffff⟩]

/-- Keys of 65535 bits have room for 400, and yet the check does not accept them. -/
theorem checkHardware_overflows_widest :
    widestRecord.length = 48 ∧ Record.parse widestRecord = .ok widestResources ∧
      Readable widestResources ∧ widestResources.activeBits = 400 ∧
      widestResources.exactKeyBits = 65536 ∧
      (checkHardware .rules widestResources).run.Held [] (.error .overflow) ∧
      ¬ (checkHardware .rules widestResources).run.Held [] (.ok ()) := by
  have readable : Readable widestResources := ⟨by decide, by decide, by decide⟩
  have breaksOff : rulesVerdict widestResources = .error .overflow :=
    rulesVerdict_eq_overflow_iff.mpr ⟨readable, by decide⟩
  refine ⟨rfl, by decide, readable, rfl, rfl, ?_, ?_⟩
  · rw [held_checkHardware_rules_iff, breaksOff]
    exact ⟨rfl, rfl⟩
  · rw [held_checkHardware_rules_iff, breaksOff]
    exact fun ⟨_, same⟩ => by cases same

end Director

end NicScope
