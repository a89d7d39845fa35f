/-
This file says which absolute ids the functions of a port have. Where the sizes of the port can be
used no id wraps: the physical function has its own number, and the virtual ones have consecutive
ids from the first id of the port on. First id and count are each bounded by the size of a bitmap,
but not their sum, so ids may lie beyond the bitmap, where no bit is read and nothing is set; and
the number of the physical function may be among the ids of the virtual ones, one of which then
shares its bit.
-/

import NicScope.Proofs.Transfer.EntryReading
import NicScope.Tables.Port

namespace NicScope

/-! ### Bits of functions -/

namespace FunctionBitmap

/-- The bitmap in which only one function is set. -/
def only (id : UInt16) : FunctionBitmap :=
  ⟨Vector.ofFn fun word : Fin 8 =>
    if word.val = id.toNat / 32 then UInt32.ofNat (2 ^ (id.toNat % 32)) else 0⟩

theorem isSet_of_outside {id : UInt16} (outside : 256 ≤ id.toNat) (bitmap : FunctionBitmap) :
    bitmap.isSet id = false :=
  dif_neg (Nat.not_lt.mpr outside)

theorem get_only (id : UInt16) (word : Fin 8) :
    (only id).words.get word =
      if word.val = id.toNat / 32 then UInt32.ofNat (2 ^ (id.toNat % 32)) else 0 :=
  Vector.getElem_ofFn word.isLt

theorem isSet_only {id : UInt16} (inside : id.toNat < 256) (other : UInt16) :
    (only id).isSet other = true ↔ other = id := by
  have place : 2 ^ (id.toNat % 32) < UInt32.size :=
    Nat.pow_lt_pow_right (by decide) (Nat.mod_lt _ (by decide))
  unfold isSet
  split
  next within =>
    rw [get_only, ← UInt16.toNat_inj]
    dsimp only
    split
    next same =>
      rw [UInt32.toNat_ofNat_of_lt' place, Nat.testBit_two_pow, decide_eq_true_eq]
      omega
    next differs =>
      rw [UInt32.toNat_zero, Nat.zero_testBit]
      exact iff_of_false nofun fun same => differs (same ▸ rfl)
  next beyond => exact iff_of_false nofun fun same => beyond (same ▸ inside)

/-- Two ids are told apart by some bitmap unless they are the same or both beyond all bitmaps. -/
theorem isSet_congr_iff (first second : UInt16) :
    (∀ bitmap : FunctionBitmap, bitmap.isSet first = bitmap.isSet second) ↔
      first = second ∨ 256 ≤ first.toNat ∧ 256 ≤ second.toNat := by
  constructor
  · intro same
    by_cases inside : first.toNat < 256
    · have set := (isSet_only inside first).mpr rfl
      rw [same] at set
      exact .inl ((isSet_only inside second).mp set).symm
    · by_cases within : second.toNat < 256
      · have set := (isSet_only within second).mpr rfl
        rw [← same] at set
        exact .inl ((isSet_only within first).mp set)
      · exact .inr ⟨Nat.not_lt.mp inside, Nat.not_lt.mp within⟩
  · rintro (rfl | ⟨outside, beyond⟩) bitmap
    · rfl
    · rw [isSet_of_outside outside, isSet_of_outside beyond]

end FunctionBitmap

/-! ### Ids of functions -/

namespace PortResources

variable {resources : PortResources} {physical : UInt8} {function : UInt16}

/-- Sizes that can be used, in numbers. -/
theorem bounds_of_isValid (valid : resources.isValid = true) :
    resources.keyMemory.toNat + resources.overflowMemory.toNat < UInt32.size ∧
      0 < resources.functions.toNat ∧ resources.functions.toNat ≤ 256 ∧
      resources.firstFunction.toNat < 256 := by
  simp only [isValid, Bool.and_eq_true, decide_eq_true_eq, bne_iff_ne] at valid
  obtain ⟨⟨⟨⟨⟨⟨⟨⟨-, memory⟩, -⟩, -⟩, -⟩, -⟩, some⟩, few⟩, first⟩ := valid
  exact ⟨memory, UInt16.lt_iff_toNat_lt.mp (UInt16.pos_iff_ne_zero.mpr some), few, first⟩

/-- The id of a function in exact numbers: the physical function has its own, the virtual ones have
those that follow the first id of the port. -/
def exactId (resources : PortResources) (physical : UInt8) (function : UInt16) : Nat :=
  if function = 0 then physical.toNat
  else resources.firstFunction.toNat + (function.toNat - 1)

theorem pos_of_virtual (virtual : function ≠ 0) : 0 < function.toNat :=
  UInt16.lt_iff_toNat_lt.mp (UInt16.pos_iff_ne_zero.mpr virtual)

/-- No id of a function of the port wraps, nor does the sum on the way to it. -/
theorem toNat_absoluteId (valid : resources.isValid = true)
    (belongs : function < resources.functions) :
    resources.firstFunction.toNat + function.toNat < UInt16.size ∧
      (resources.absoluteId physical function).toNat = resources.exactId physical function := by
  obtain ⟨-, -, few, first⟩ := bounds_of_isValid valid
  have inside := UInt16.lt_iff_toNat_lt.mp belongs
  have narrow : resources.firstFunction.toNat + function.toNat < 65536 := by omega
  refine ⟨narrow, ?_⟩
  unfold absoluteId exactId
  split
  next => exact UInt8.toNat_toUInt16 physical
  next virtual =>
    have positive := pos_of_virtual virtual
    have sum : (resources.firstFunction + function).toNat =
        resources.firstFunction.toNat + function.toNat :=
      (UInt16.toNat_add _ _).trans (Nat.mod_eq_of_lt narrow)
    have above : (1 : UInt16) ≤ resources.firstFunction + function := by
      rw [UInt16.le_iff_toNat_le, sum]
      exact Nat.le_add_left_of_le positive
    rw [UInt16.toNat_sub_of_le _ _ above, sum]
    exact Nat.add_sub_assoc positive _

/-! ### Ids beyond the bitmap and shared ids -/

/-- The id of each function of the port has a bit in a bitmap. -/
def IdsInside (resources : PortResources) (physical : UInt8) : Prop :=
  ∀ function < resources.functions, (resources.absoluteId physical function).toNat < 256

/-- No two functions of the port have the same id. -/
def IdsDistinct (resources : PortResources) (physical : UInt8) : Prop :=
  ∀ first < resources.functions, ∀ second < resources.functions,
    resources.absoluteId physical first = resources.absoluteId physical second → first = second

theorem exactId_zero : resources.exactId physical 0 = physical.toNat :=
  if_pos rfl

theorem exactId_of_virtual (virtual : function ≠ 0) :
    resources.exactId physical function = resources.firstFunction.toNat + (function.toNat - 1) :=
  if_neg virtual

/-- The number of a function as a word. -/
theorem exists_function (number : Nat) (below : number < resources.functions.toNat) :
    ∃ function < resources.functions, function.toNat = number := by
  have place := UInt16.toNat_ofNat_of_lt' (Nat.lt_trans below resources.functions.toNat_lt)
  exact ⟨UInt16.ofNat number, UInt16.lt_iff_toNat_lt.mpr (place.symm ▸ below), place⟩

/-- All ids lie in the bitmap exactly if the last virtual function has one there. -/
theorem idsInside_iff (valid : resources.isValid = true) :
    resources.IdsInside physical ↔
      resources.firstFunction.toNat + resources.functions.toNat ≤ 257 := by
  obtain ⟨-, nonempty, few, first⟩ := bounds_of_isValid valid
  have number := physical.toNat_lt
  constructor
  · intro inside
    obtain ⟨last, belongs, place⟩ := exists_function _ (Nat.sub_one_lt_of_lt nonempty)
    have bound := inside last belongs
    rw [(toNat_absoluteId valid belongs).2] at bound
    by_cases zero : last = 0
    · subst zero
      rw [UInt16.toNat_zero] at place
      omega
    · rw [exactId_of_virtual zero] at bound
      omega
  · intro reach function belongs
    have below := UInt16.lt_iff_toNat_lt.mp belongs
    rw [(toNat_absoluteId valid belongs).2]
    by_cases zero : function = 0
    · subst zero
      exact number
    · rw [exactId_of_virtual zero]
      omega

/-- Two virtual functions never have the same id. -/
theorem eq_of_absoluteId_eq (valid : resources.isValid = true) {first second : UInt16}
    (belongs : first < resources.functions) (belongs' : second < resources.functions)
    (virtual : first ≠ 0) (virtual' : second ≠ 0)
    (same : resources.absoluteId physical first = resources.absoluteId physical second) :
    first = second := by
  have exact := congrArg UInt16.toNat same
  rw [(toNat_absoluteId valid belongs).2, (toNat_absoluteId valid belongs').2,
    exactId_of_virtual virtual, exactId_of_virtual virtual'] at exact
  have positive := pos_of_virtual virtual
  have positive' := pos_of_virtual virtual'
  exact UInt16.toNat_inj.mp (by omega)

/-- The physical function shares its id with the virtual function whose id its number is. -/
theorem absoluteId_zero_eq_iff (valid : resources.isValid = true)
    (belongs : function < resources.functions) (virtual : function ≠ 0) :
    resources.absoluteId physical 0 = resources.absoluteId physical function ↔
      physical.toNat + 1 = resources.firstFunction.toNat + function.toNat := by
  have positive := pos_of_virtual virtual
  have ports : (0 : UInt16) < resources.functions :=
    UInt16.lt_iff_toNat_lt.mpr (bounds_of_isValid valid).2.1
  rw [← UInt16.toNat_inj, (toNat_absoluteId valid ports).2, (toNat_absoluteId valid belongs).2,
    exactId_zero, exactId_of_virtual virtual]
  omega

/-- The number of the physical function is among the ids of the virtual ones. -/
def NumberTaken (resources : PortResources) (physical : UInt8) : Prop :=
  resources.firstFunction.toNat ≤ physical.toNat ∧
    physical.toNat + 1 < resources.firstFunction.toNat + resources.functions.toNat

theorem numberTaken_iff (valid : resources.isValid = true) :
    resources.NumberTaken physical ↔ ∃ function < resources.functions,
      function ≠ 0 ∧ resources.absoluteId physical 0 = resources.absoluteId physical function := by
  constructor
  · rintro ⟨above, below⟩
    obtain ⟨function, belongs, place⟩ :=
      exists_function (physical.toNat + 1 - resources.firstFunction.toNat)
        (show _ < resources.functions.toNat by omega)
    have virtual : function ≠ 0 := by
      rintro rfl
      rw [UInt16.toNat_zero] at place
      omega
    exact ⟨function, belongs, virtual,
      (absoluteId_zero_eq_iff valid belongs virtual).mpr (by omega)⟩
  · rintro ⟨function, belongs, virtual, same⟩
    have shared := (absoluteId_zero_eq_iff valid belongs virtual).mp same
    have below := UInt16.lt_iff_toNat_lt.mp belongs
    have positive := pos_of_virtual virtual
    exact ⟨by omega, by omega⟩

/-- The ids are distinct unless the number of the physical function is taken. -/
theorem idsDistinct_iff (valid : resources.isValid = true) :
    resources.IdsDistinct physical ↔ ¬ resources.NumberTaken physical := by
  have port : (0 : UInt16) < resources.functions :=
    UInt16.lt_iff_toNat_lt.mpr (bounds_of_isValid valid).2.1
  rw [numberTaken_iff valid]
  constructor
  · rintro distinct ⟨function, belongs, virtual, same⟩
    exact virtual (distinct 0 port function belongs same).symm
  · intro unshared first belongs second belongs' same
    by_cases zero : first = 0
    · subst zero
      by_contra differs
      exact unshared ⟨second, belongs', Ne.symm differs, same⟩
    · by_cases zero' : second = 0
      · subst zero'
        exact absurd ⟨first, belongs, zero, same.symm⟩ unshared
      · exact eq_of_absoluteId_eq valid belongs belongs' zero zero' same

/-- The address table has as many entries as both memories together. -/
theorem toNat_addressEntries (valid : resources.isValid = true) :
    resources.addressEntries.toNat =
      resources.keyMemory.toNat + resources.overflowMemory.toNat := by
  obtain ⟨memory, -⟩ := bounds_of_isValid valid
  rw [addressEntries, toNat_saturatingAdd, Nat.min_eq_left (Nat.le_sub_one_of_lt memory)]

/-- On a port whose sizes can be used no id of a function wraps, and the virtual functions have ids
of their own. All ids lie in the bitmaps exactly if those of the virtual functions end there, and
all are distinct exactly if the number of the physical function is not among them. For an id beyond
the bitmaps no bit is set, and two functions read the same bits exactly if they have the same id or
both read none. The address table has as many entries as both memories together. -/
theorem absoluteIds_of_isValid (valid : resources.isValid = true) (physical : UInt8) :
    (∀ function < resources.functions,
      resources.firstFunction.toNat + function.toNat < UInt16.size ∧
        (resources.absoluteId physical function).toNat = resources.exactId physical function) ∧
    (∀ first < resources.functions, ∀ second < resources.functions, first ≠ 0 → second ≠ 0 →
      resources.absoluteId physical first = resources.absoluteId physical second →
        first = second) ∧
    (resources.IdsInside physical ↔
      resources.firstFunction.toNat + resources.functions.toNat ≤ 257) ∧
    (resources.IdsDistinct physical ↔ ¬ resources.NumberTaken physical) ∧
    (∀ function < resources.functions, 256 ≤ resources.exactId physical function →
      ∀ bitmap : FunctionBitmap,
        bitmap.isSet (resources.absoluteId physical function) = false) ∧
    (∀ first < resources.functions, ∀ second < resources.functions,
      ((∀ bitmap : FunctionBitmap, bitmap.isSet (resources.absoluteId physical first) =
          bitmap.isSet (resources.absoluteId physical second)) ↔
        resources.absoluteId physical first = resources.absoluteId physical second ∨
          256 ≤ resources.exactId physical first ∧ 256 ≤ resources.exactId physical second)) ∧
    resources.addressEntries.toNat =
      resources.keyMemory.toNat + resources.overflowMemory.toNat := by
  have exact {function : UInt16} (belongs : function < resources.functions) :
      (resources.absoluteId physical function).toNat = resources.exactId physical function :=
    (toNat_absoluteId valid belongs).2
  refine ⟨fun _ belongs => toNat_absoluteId valid belongs, ?_, idsInside_iff valid,
    idsDistinct_iff valid, ?_, ?_, toNat_addressEntries valid⟩
  · intro first belongs second belongs' virtual virtual' same
    exact eq_of_absoluteId_eq valid belongs belongs' virtual virtual' same
  · intro function belongs beyond bitmap
    rw [← exact belongs] at beyond
    exact bitmap.isSet_of_outside beyond
  · intro first belongs second belongs'
    rw [← exact belongs, ← exact belongs']
    exact FunctionBitmap.isSet_congr_iff _ _

/-- A port with 256 functions of which the first virtual one has the last id of a bitmap. -/
def reachingPort : PortResources :=
  ⟨2, 2, 4, 8, 8, 256, 255, 1⟩

/-- A port whose only virtual function has the first id of all. -/
def lowPort : PortResources :=
  ⟨2, 2, 4, 8, 8, 2, 0, 1⟩

/-- The port that reaches beyond the bitmaps has distinct ids, though. -/
theorem absoluteIds_of_isValid_reaching :
    reachingPort.isValid = true ∧ ¬ reachingPort.IdsInside 3 ∧ reachingPort.IdsDistinct 3 := by
  have valid : reachingPort.isValid = true := by decide
  obtain ⟨-, -, inside, distinct, -⟩ := absoluteIds_of_isValid valid 3
  refine ⟨valid, fun all => ?_, distinct.mpr fun taken => ?_⟩
  · exact absurd (inside.mp all) (by decide)
  · exact absurd taken.1 (by decide)

/-- Sizes that can be used leave room for an id beyond the bitmaps, and for a virtual function with
the id of the physical one. -/
theorem absoluteIds_outside_and_shared :
    reachingPort.isValid = true ∧ (255 : UInt16) < reachingPort.functions ∧
      (reachingPort.absoluteId 0 255).toNat = 509 ∧ ¬ reachingPort.IdsInside 0 ∧
    lowPort.isValid = true ∧ (1 : UInt16) < lowPort.functions ∧
      lowPort.absoluteId 0 0 = lowPort.absoluteId 0 1 ∧ ¬ lowPort.IdsDistinct 0 := by
  refine ⟨by decide, by decide, by decide, fun inside => ?_, by decide, by decide, by decide,
    fun distinct => ?_⟩
  · exact absurd (inside 255 (by decide)) (by decide)
  · exact absurd (distinct 0 (by decide) 1 (by decide) (by decide)) (by decide)

end PortResources

end NicScope
