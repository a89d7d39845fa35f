/-
This file compares the two views of the address tables. The full view has a row in its part over
key memory for every entry that is stored there, wherever it stands among the others; the view of
a function stops at the first entry that is not. So the two agree on a function exactly if none of
its entries in key memory stands behind an entry in overflow memory. Nothing sorts the entries, and
where the firmware reports them in another order addresses of the function are left out.
-/

import NicScope.Command.PortView

namespace NicScope

open Numeral

/-! ### Stopping at an entry and passing over it -/

section Stopping

variable {α β : Type} (inside chosen : α → Bool) (image : α → β) (entries : List α)

/-- What is chosen among the entries inside: those in front of the first outside, and those behind
it. -/
theorem filter_eq_takeWhile_append :
    (entries.filter inside).filter chosen =
      (entries.takeWhile inside).filter chosen ++
        ((entries.dropWhile inside).filter inside).filter chosen := by
  have front : (entries.takeWhile inside).filter inside = entries.takeWhile inside :=
    List.filter_eq_self.mpr fun _ member => List.all_eq_true.mp List.all_takeWhile _ member
  calc (entries.filter inside).filter chosen
      = ((entries.takeWhile inside ++ entries.dropWhile inside).filter inside).filter chosen := by
        rw [List.takeWhile_append_dropWhile]
    _ = _ := by rw [List.filter_append, List.filter_append, front]

/-- Whoever stops at the first entry outside misses nothing exactly if nothing chosen stands behind
it. -/
theorem map_takeWhile_eq_iff :
    ((entries.takeWhile inside).filter chosen).map image =
        ((entries.filter inside).filter chosen).map image ↔
      ∀ entry ∈ entries.dropWhile inside, inside entry = true → chosen entry = false := by
  rw [filter_eq_takeWhile_append, List.map_append, List.self_eq_append_right, List.map_eq_nil_iff,
    List.filter_eq_nil_iff]
  simp only [List.mem_filter, Bool.not_eq_true, and_imp]

end Stopping

namespace PortTables

variable (resources : PortResources) (physical : UInt8) (function : UInt16)

/-! ### The full view -/

/-- The part of the full view over key memory, with the entries that have a row in it. -/
def keySection (unicast : List UnicastEntry) (unicastCount : Nat)
    (multicast : List MulticastEntry) (multicastCount : Nat) : List String :=
  ("Key mem[total_entry_size=" ++ decimal resources.keyMemory.toNat ++ "]:") ::
    addressRows unicast unicastCount multicast multicastCount

/-- The unicast entries in key memory. -/
def unicastKeys (entries : List UnicastEntry) : List UnicastEntry :=
  entries.filter fun entry => entry.index < resources.keyMemory

/-- The multicast entries in key memory. -/
def multicastKeys (entries : List MulticastEntry) : List MulticastEntry :=
  entries.filter fun entry => entry.index < resources.keyMemory

/-- The full view begins with a row for every entry in key memory. -/
theorem keySection_prefix_allAddresses (unicast : List UnicastEntry)
    (multicast : List MulticastEntry) :
    keySection resources (unicastKeys resources unicast) unicast.length
        (multicastKeys resources multicast) multicast.length <+:
      allAddresses resources unicast multicast := by
  simp only [allAddresses]
  split
  · exact List.prefix_rfl
  · exact List.prefix_append _ _

/-! ### The view of a function -/

/-- The entry belongs to the function. -/
def ownsUnicast (entry : UnicastEntry) : Bool :=
  entry.physical == physical && entry.function == function

/-- The function is in the bitmap of the entry. -/
def ownsMulticast (entry : MulticastEntry) : Bool :=
  entry.functions.isSet (resources.absoluteId physical function)

/-- The lines of a function that has these addresses. -/
def functionLines (isUnicast : Bool) (addresses : List MacAddress) : List String :=
  [functionName function ++ "_abs_func_id=" ++
      decimal (resources.absoluteId physical function).toNat,
    functionName function ++ " " ++ (if isUnicast then "unicast" else "multicast") ++
      " MAC addrs:"] ++
    addresses.map fun address => "\t" ++ address.render

theorem functionAddresses_eq (isUnicast : Bool) (unicast : List UnicastEntry)
    (multicast : List MulticastEntry) :
    functionAddresses resources physical function isUnicast unicast multicast =
      functionLines resources physical function isUnicast
        (if isUnicast then unicastOf resources physical function unicast
          else multicastOf resources physical function multicast) :=
  rfl

theorem functionLines_eq_iff {α : Type} {isUnicast : Bool} {address : α → MacAddress}
    {entries others : List α} :
    functionLines resources physical function isUnicast (entries.map address) =
        functionLines resources physical function isUnicast (others.map address) ↔
      entries.map (fun entry => "\t" ++ (address entry).render) =
        others.map fun entry => "\t" ++ (address entry).render := by
  rw [functionLines, functionLines, List.append_cancel_left_eq, List.map_map, List.map_map]
  rfl

/-- The full view shows every entry in key memory. The view of a function shows the addresses of
those that belong to it exactly if none of them stands behind an entry in overflow memory. -/
theorem functionAddresses_agree_iff (unicast : List UnicastEntry)
    (multicast : List MulticastEntry) :
    keySection resources (unicastKeys resources unicast) unicast.length
        (multicastKeys resources multicast) multicast.length <+:
      allAddresses resources unicast multicast ∧
    (functionAddresses resources physical function true unicast multicast =
        functionLines resources physical function true
          (((unicastKeys resources unicast).filter (ownsUnicast physical function)).map
            (·.address)) ↔
      ∀ entry ∈ unicast.dropWhile fun entry => entry.index < resources.keyMemory,
        entry.index < resources.keyMemory → ownsUnicast physical function entry = false) ∧
    (functionAddresses resources physical function false unicast multicast =
        functionLines resources physical function false
          (((multicastKeys resources multicast).filter
            (ownsMulticast resources physical function)).map (·.address)) ↔
      ∀ entry ∈ multicast.dropWhile fun entry => entry.index < resources.keyMemory,
        entry.index < resources.keyMemory →
          ownsMulticast resources physical function entry = false) := by
  refine ⟨keySection_prefix_allAddresses resources unicast multicast, ?_, ?_⟩
  · rw [functionAddresses_eq, if_pos rfl, unicastOf, functionLines_eq_iff, unicastKeys]
    exact (map_takeWhile_eq_iff _ (ownsUnicast physical function) _ unicast).trans
      (by simp only [decide_eq_true_eq])
  · rw [functionAddresses_eq, if_neg nofun, multicastOf, functionLines_eq_iff, multicastKeys]
    exact (map_takeWhile_eq_iff _ (ownsMulticast resources physical function) _ multicast).trans
      (by simp only [decide_eq_true_eq])

/-- A port with two entries in key memory and two in overflow memory. -/
def smallPort : PortResources :=
  ⟨2, 2, 4, 8, 8, 3, 8, 1⟩

/-- An address of the first virtual function, stored under an index. -/
def storedAt (index : UInt32) : UnicastEntry :=
  ⟨index, ⟨#v[0, 0x11, 0x22, 0x33, 0x44, index.toUInt8]⟩, 1, 0, 0, 0, 0, 1, 0, 0x8⟩

/-- Two addresses of a function of which the one in overflow memory is reported first: the full
view has a row for the other, and the view of the function shows none. -/
theorem functionAddresses_unsorted :
    unicastKeys smallPort [storedAt 3, storedAt 0] = [storedAt 0] ∧
      ownsUnicast 0 1 (storedAt 0) = true ∧
      unicastOf smallPort 0 1 [storedAt 3, storedAt 0] = [] ∧
      functionAddresses smallPort 0 1 true [storedAt 3, storedAt 0] [] ≠
        functionLines smallPort 0 1 true
          (((unicastKeys smallPort [storedAt 3, storedAt 0]).filter (ownsUnicast 0 1)).map
            (·.address)) := by
  refine ⟨by decide, by decide, by decide, fun same => ?_⟩
  exact absurd (congrArg List.length same) (by decide)

end PortTables

end NicScope
