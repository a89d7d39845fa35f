/-
This file proves that the tables name the same functions however they are shown. The last column of
a row is the text of a bitmap; it is read back as the number of the bitmap, so a row names just the
functions that are set. The view of one function then shows, of the entries that it looks at, those
whose rows in the full view name the function.
-/

import Mathlib.Data.List.TakeWhile
import NicScope.Proofs.Command.AddressViews
import NicScope.Proofs.Tables.BitmapNumber
import NicScope.Proofs.Text.AddressGrammar

namespace NicScope

open Numeral

/-! ### The last column of a row -/

/-- The hexadecimal number behind the last bar of a row, in which colons do not count. -/
def columnNumber? (row : String) : Option Nat :=
  (Cut.last? '|' row.toList).bind fun parts =>
    readDigits? 16 ((Blank.trimStart parts.2).filter (· ≠ ':'))

/-- The last column of the row names the function. -/
def rowNames (row : String) (id : UInt16) : Bool :=
  (columnNumber? row).any fun number => number.testBit id.toNat

/-- The text of a bitmap has only the signs of digits and colons. -/
theorem FunctionBitmap.mem_render (bitmap : FunctionBitmap) :
    ∀ sign ∈ bitmap.render.toList, sign ∈ ':' :: digitSigns := by
  intro sign member
  by_contra other
  obtain ⟨apart, noDigit⟩ := not_or.mp (mt List.mem_cons.mpr other)
  have kept : sign ∈ bitmap.render.toList.filter (· ≠ ':') :=
    List.mem_filter.mpr ⟨member, decide_eq_true apart⟩
  rw [toList_render, filter_intercalate, List.mem_flatten] at kept
  · obtain ⟨piece, place, inside⟩ := kept
    obtain ⟨word, _, rfl⟩ := List.mem_map.mp place
    exact not_mem_paddedDigits noDigit 16 8 word inside
  · exact List.forall_mem_map.mpr fun _ _ => not_mem_paddedDigits (by decide) 16 8 _

/-- A row that ends in the text of a bitmap has the number of the bitmap in its last column. -/
theorem columnNumber?_of_render {row : String} {front : List Char} {bitmap : FunctionBitmap}
    (whole : row.toList = front ++ '|' :: ' ' :: bitmap.render.toList) :
    columnNumber? row = some bitmap.number := by
  have signs : (':' :: digitSigns).all (fun sign => sign != '|' && !Blank.isBlank sign) = true := by
    decide
  have plain (sign : Char) (member : sign ∈ ':' :: digitSigns) :
      sign ≠ '|' ∧ Blank.isBlank sign = false := by
    simpa using List.all_eq_true.mp signs sign member
  have noBar : '|' ∉ ' ' :: bitmap.render.toList := by
    refine List.not_mem_cons_of_ne_of_not_mem (by decide) fun bar => ?_
    exact (plain _ (bitmap.mem_render _ bar)).1 rfl
  have trimmed : Blank.trimStart (' ' :: bitmap.render.toList) = bitmap.render.toList := by
    rw [Blank.trimStart, List.dropWhile_cons_of_pos (by decide), List.dropWhile_eq_self_iff]
    intro positive blank
    have clear := (plain _ (bitmap.mem_render _ (List.getElem_mem positive))).2
    rw [clear] at blank
    cases blank
  rw [columnNumber?, Cut.last?_eq_some_iff.mpr ⟨whole, noBar⟩, Option.bind_some]
  dsimp only
  rw [trimmed]
  exact (readDigits?_eq_some_iff (by decide)).mpr bitmap.writes_render

theorem rowNames_of_render {row : String} (front : List Char) {bitmap : FunctionBitmap}
    (whole : row.toList = front ++ '|' :: ' ' :: bitmap.render.toList) (id : UInt16) :
    rowNames row id = bitmap.isSet id := by
  rw [rowNames, columnNumber?_of_render whole, Option.any_some, bitmap.isSet_eq_testBit]

namespace PortTables

/-! ### Rows -/

theorem rowNames_multicastRow (entry : MulticastEntry) (id : UInt16) :
    rowNames (multicastRow entry) id = entry.functions.isSet id := by
  refine rowNames_of_render ((paddedDecimal 4 entry.index.toNat).toList ++ "  | ".toList ++
    entry.address.render.toList ++ [' ']) ?_ id
  simp [multicastRow]

/-- The row of an entry of the VLAN filter of the functions. -/
def functionVlanRow (entry : FunctionVlanEntry) : String :=
  " " ++ paddedDecimal 4 entry.vlan.toNat ++ "  | " ++ entry.functions.render

theorem rowNames_functionVlanRow (entry : FunctionVlanEntry) (id : UInt16) :
    rowNames (functionVlanRow entry) id = entry.functions.isSet id := by
  refine rowNames_of_render (' ' :: (paddedDecimal 4 entry.vlan.toNat).toList ++
    "  ".toList) ?_ id
  simp [functionVlanRow]

/-! ### Views -/

section Views

variable (resources : PortResources) (physical : UInt8) (function : UInt16)

/-- The lines of a virtual function that has these VLANs. -/
def functionVlanLines (vlans : List UInt16) : List String :=
  [functionName function ++ "_abs_func_id: " ++
      decimal (resources.absoluteId physical function).toNat,
    functionName function ++ " VLAN id:", "\t" ++ vlanBlock vlans]

/-- The full view has a row for every entry of the VLAN filter of the functions. -/
theorem functionVlanRows_infix_allVlans (functions : List FunctionVlanEntry)
    (ports : List PortVlanEntry) :
    functions.map functionVlanRow <:+: allVlans resources functions ports :=
  ⟨_, _, (List.append_assoc _ _ _).symm⟩

/-- The full view has a row for every multicast address in key memory. -/
theorem multicastRows_infix_allAddresses (unicast : List UnicastEntry)
    (multicast : List MulticastEntry) :
    (multicastKeys resources multicast).map multicastRow <:+:
      allAddresses resources unicast multicast := by
  refine List.IsInfix.trans ?_
    (keySection_prefix_allAddresses resources unicast multicast).isInfix
  exact ((List.suffix_append _ _).trans (List.suffix_cons _ _)).isInfix

/-- The view of a function shows the VLANs whose rows in the full view name it. -/
theorem functionVlans_eq_named (functions : List FunctionVlanEntry) :
    functionVlans resources physical function functions =
      functionVlanLines resources physical function
        ((functions.filter fun entry =>
          rowNames (functionVlanRow entry) (resources.absoluteId physical function)).map
            (·.vlan)) := by
  simp only [rowNames_functionVlanRow]
  rfl

/-- The view of a function shows the multicast addresses, up to the first outside the key memory,
whose rows in the full view name it. -/
theorem functionAddresses_eq_named (unicast : List UnicastEntry)
    (multicast : List MulticastEntry) :
    functionAddresses resources physical function false unicast multicast =
      functionLines resources physical function false
        (((multicast.takeWhile fun entry => entry.index < resources.keyMemory).filter fun entry =>
          rowNames (multicastRow entry) (resources.absoluteId physical function)).map
            (·.address)) := by
  simp only [rowNames_multicastRow]
  rfl

end Views

end PortTables

open PortTables in
/-- Any 32 bytes are read as a bitmap, and its text without colons as a number of 256 bits. A
function is set in the bitmap if its bit is set in the byte where its id falls, and if the bit of
its id is set in the number. So the rows of the full views name the functions that are set, and the
views of a function show what names it. -/
theorem bitmap_views_agree :
    (∀ (bytes : Vector UInt8 32) (position : Nat) (rest : Bytes),
      ∃ (bitmap : FunctionBitmap) (number : Nat),
        FunctionBitmap.read.run ⟨position, bytes.toList ++ rest⟩ =
          (.ok bitmap, ⟨position + 32, rest⟩) ∧
        readDigits? 16 (bitmap.render.toList.filter (· ≠ ':')) = some number ∧
        number < 2 ^ 256 ∧
        ∀ id : UInt16,
          (bitmap.isSet id = true ↔
            ∃ _ : id.toNat < 256, bytes[id.toNat / 8].toNat.testBit (id.toNat % 8) = true) ∧
          (bitmap.isSet id = true ↔ number.testBit id.toNat = true)) ∧
    (∀ (entry : MulticastEntry) (id : UInt16),
      rowNames (multicastRow entry) id = entry.functions.isSet id) ∧
    (∀ (entry : FunctionVlanEntry) (id : UInt16),
      rowNames (functionVlanRow entry) id = entry.functions.isSet id) ∧
    ∀ (resources : PortResources) (physical : UInt8) (function : UInt16),
      (∀ (functions : List FunctionVlanEntry) (ports : List PortVlanEntry),
        functions.map functionVlanRow <:+: allVlans resources functions ports ∧
        functionVlans resources physical function functions =
          functionVlanLines resources physical function
            ((functions.filter fun entry =>
              rowNames (functionVlanRow entry) (resources.absoluteId physical function)).map
                (·.vlan))) ∧
      ∀ (unicast : List UnicastEntry) (multicast : List MulticastEntry),
        (multicastKeys resources multicast).map multicastRow <:+:
          allAddresses resources unicast multicast ∧
        functionAddresses resources physical function false unicast multicast =
          functionLines resources physical function false
            (((multicast.takeWhile fun entry => entry.index < resources.keyMemory).filter
              fun entry =>
                rowNames (multicastRow entry) (resources.absoluteId physical function)).map
                  (·.address)) := by
  refine ⟨fun bytes position rest => ?_, rowNames_multicastRow, rowNames_functionVlanRow,
    fun resources physical function => ⟨fun functions ports => ⟨?_, ?_⟩,
      fun unicast multicast => ⟨?_, ?_⟩⟩⟩
  · obtain ⟨bitmap, read, same⟩ :=
      FunctionBitmap.run_read position rest bytes.length_toList
    have written := (readDigits?_eq_some_iff (by decide)).mpr bitmap.writes_render
    refine ⟨bitmap, bitmap.number, read, written, bitmap.number_lt, fun id => ⟨?_, ?_⟩⟩
    · exact FunctionBitmap.isSet_iff_testBit_byte same id
    · rw [bitmap.isSet_eq_testBit]
  · exact functionVlanRows_infix_allVlans resources functions ports
  · exact functionVlans_eq_named resources physical function functions
  · exact multicastRows_infix_allAddresses resources unicast multicast
  · exact functionAddresses_eq_named resources physical function unicast multicast

end NicScope
