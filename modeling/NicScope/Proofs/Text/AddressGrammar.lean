/-
This file gives the grammar of PCI addresses and proves that reading an address accepts exactly its
short texts whose numbers fit, and that the text written for an address is one of them. Cutting a
text at all colons or at the last point loses nothing, and no digit is one of these signs, so the
pieces are the numbers. In a packed word the numbers do not overlap, so the address gives back the
numbers that it was built from, and writing and reading it again changes nothing.
-/

import NicScope.Proofs.Text.DigitReading
import NicScope.Wire.Address

namespace NicScope

open Numeral

/-! ### Cutting -/

namespace Cut

variable {separator : Char} {text before behind : List Char}

theorem all_eq_splitOn (separator : Char) (text : List Char) :
    all separator text = text.splitOn separator := by
  induction text with
  | nil => rfl
  | cons character rest inductionHypothesis =>
    rw [all, inductionHypothesis, List.splitOn_eq_splitOnP, List.splitOn_eq_splitOnP,
      List.splitOnP_cons_eq_if_modifyHead]
    by_cases here : character = separator
    · rw [if_pos here, if_pos (beq_iff_eq.mpr here)]
    · rw [if_neg here, if_neg (mt beq_iff_eq.mp here)]
      cases pieces : rest.splitOnP (· == separator) with
      | nil => exact absurd pieces (List.splitOnP_ne_nil _ rest)
      | cons first others => rfl

theorem last?_eq_none_iff : last? separator text = none ↔ separator ∉ text := by
  induction text with
  | nil => exact iff_of_true rfl List.not_mem_nil
  | cons character rest inductionHypothesis =>
    rw [last?, List.mem_cons, not_or, ← inductionHypothesis]
    cases last? separator rest with
    | some parts => exact iff_of_false nofun nofun
    | none =>
      dsimp only
      rw [ite_eq_right_iff, ← ne_eq, ne_comm]
      simp

/-- What is cut off stands behind the separator and has none inside. -/
theorem last?_eq_some_iff :
    last? separator text = some (before, behind) ↔
      text = before ++ separator :: behind ∧ separator ∉ behind := by
  induction text generalizing before with
  | nil => simp [last?]
  | cons character rest inductionHypothesis =>
    rw [last?]
    cases later : last? separator rest with
    | some parts =>
      constructor
      · intro same
        cases same
        obtain ⟨rfl, absent⟩ := inductionHypothesis.mp later
        exact ⟨rfl, absent⟩
      · rintro ⟨whole, absent⟩
        cases before with
        | nil =>
          obtain ⟨_, rfl⟩ := List.cons.inj whole
          cases later.symm.trans (last?_eq_none_iff.mpr absent)
        | cons first front =>
          obtain ⟨rfl, rest⟩ := List.cons.inj whole
          cases later.symm.trans (inductionHypothesis.mpr ⟨rest, absent⟩)
          rfl
    | none =>
      have absent := last?_eq_none_iff.mp later
      dsimp only
      rw [Option.ite_none_right_eq_some]
      constructor
      · rintro ⟨rfl, same⟩
        cases same
        exact ⟨rfl, absent⟩
      · rintro ⟨whole, _⟩
        cases before with
        | nil =>
          obtain ⟨rfl, rfl⟩ := List.cons.inj whole
          exact ⟨rfl, rfl⟩
        | cons first front =>
          obtain ⟨_, rfl⟩ := List.cons.inj whole
          exact absurd (List.mem_append_right _ List.mem_cons_self) absent

end Cut

/-! ### Runs of digits -/

namespace Numeral

variable {base number : Nat} {text : List Char}

theorem Writes.mem (written : Writes base text number) :
    ∀ character ∈ text, character ∈ smallDigits ++ capitalDigits := by
  obtain ⟨nonempty, values, each, sum⟩ := written
  clear nonempty sum
  induction each with
  | nil => exact fun _ member => absurd member List.not_mem_nil
  | cons digit _ inductionHypothesis =>
    refine List.forall_mem_cons.mpr ⟨?_, inductionHypothesis⟩
    obtain ⟨_, small | capital⟩ := digit
    · exact List.mem_append_left _ (List.mem_of_getElem? small)
    · exact List.mem_append_right _ (List.mem_of_getElem? capital)

theorem Writes.absent {character : Char} (written : Writes base text number)
    (other : character ∉ smallDigits ++ capitalDigits) : character ∉ text :=
  fun member => other (written.mem character member)

/-- Runs of digits are read as words, each as the number that it writes. -/
theorem mapM_readWord?_eq_some_iff (small : base ≤ 16) {pieces : List (List Char)}
    {words : List UInt32} :
    pieces.mapM (readWord? base) = some words ↔
      List.Forall₂ (fun piece word => Writes base piece word.toNat) pieces words := by
  induction pieces generalizing words with
  | nil =>
    rw [List.mapM_nil, List.forall₂_nil_left_iff]
    exact Option.some_inj.trans eq_comm
  | cons piece rest inductionHypothesis =>
    rw [List.mapM_cons, List.forall₂_cons_left_iff]
    simp only [Option.bind_eq_bind, Option.bind_eq_some_iff, readWord?_eq_some_iff small,
      inductionHypothesis]
    constructor
    · rintro ⟨word, first, others, each, same⟩
      cases same
      exact ⟨word, others, first, each, rfl⟩
    · rintro ⟨word, others, first, each, rfl⟩
      exact ⟨word, first, others, each, rfl⟩

theorem utf8ByteSize_ofList (narrow : ∀ character ∈ text, character.utf8Size = 1) :
    (String.ofList text).utf8ByteSize = text.length := by
  induction text with
  | nil => rfl
  | cons character rest inductionHypothesis =>
    obtain ⟨first, others⟩ := List.forall_mem_cons.mp narrow
    rw [String.ofList_cons, String.utf8ByteSize_append, inductionHypothesis others,
      String.utf8ByteSize_singleton, first, List.length_cons, Nat.add_comm]

end Numeral

/-! ### Numbers -/

namespace PciAddress

variable {domain bus device function : UInt32} {address : PciAddress} {text : List Char}

theorem ofNumbers_eq_ok_iff :
    ofNumbers domain bus device function = .ok address ↔
      InRange domain bus device function ∧ address = ⟨domain, pack bus device function⟩ := by
  rw [ofNumbers]
  split
  next inRange => rw [Except.ok.injEq, and_iff_right inRange, eq_comm]
  next outside => exact iff_of_false nofun fun both => outside both.1

theorem inRange_iff :
    InRange domain bus device function ↔
      domain.toNat ≤ 0xffff ∧ 1 ≤ bus.toNat ∧ bus.toNat ≤ 0xff ∧ device.toNat ≤ 0x1f ∧
        function.toNat ≤ 7 := by
  have positive : bus ≠ 0 ↔ 1 ≤ bus.toNat := by
    rw [ne_eq, ← UInt32.toNat_inj, Nat.one_le_iff_ne_zero]
    rfl
  rw [InRange, positive]
  rfl

/-- The numbers in a packed word do not overlap. -/
theorem toNat_pack (inRange : InRange domain bus device function) :
    (pack bus device function).toNat =
      function.toNat + 2 ^ 8 * device.toNat + 2 ^ 16 * bus.toNat := by
  obtain ⟨_, _, bus_le, device_le, function_le⟩ := inRange_iff.mp inRange
  have bus_shifted : (bus <<< 16).toNat = 2 ^ 16 * bus.toNat := by
    rw [UInt32.toNat_shiftLeft, Nat.shiftLeft_eq, Nat.mul_comm]
    exact Nat.mod_eq_of_lt (by change 2 ^ 16 * bus.toNat < _; omega)
  have device_shifted : (device <<< 8).toNat = 2 ^ 8 * device.toNat := by
    rw [UInt32.toNat_shiftLeft, Nat.shiftLeft_eq, Nat.mul_comm]
    exact Nat.mod_eq_of_lt (by change 2 ^ 8 * device.toNat < _; omega)
  rw [pack, UInt32.toNat_or, UInt32.toNat_or, bus_shifted, device_shifted,
    Nat.or_comm _ (2 ^ 8 * _), ← Nat.two_pow_add_eq_or_of_lt (by omega), Nat.or_comm,
    ← Nat.two_pow_add_eq_or_of_lt (by omega)]
  omega

theorem toNat_bus (address : PciAddress) :
    address.bus.toNat = address.packed.toNat / 2 ^ 16 % 2 ^ 8 := by
  rw [PciAddress.bus, UInt32.toNat_toUInt8, UInt32.toNat_shiftRight, Nat.shiftRight_eq_div_pow]
  rfl

theorem toNat_device (address : PciAddress) :
    address.device.toNat = address.packed.toNat / 2 ^ 8 % 2 ^ 8 := by
  rw [PciAddress.device, UInt32.toNat_toUInt8, UInt32.toNat_shiftRight, Nat.shiftRight_eq_div_pow]
  rfl

theorem toNat_function (address : PciAddress) :
    address.function.toNat = address.packed.toNat % 2 ^ 8 := by
  rw [PciAddress.function, UInt32.toNat_toUInt8]

/-- An address gives back the numbers that it was built from. -/
theorem numbers_of_ofNumbers (built : ofNumbers domain bus device function = .ok address) :
    address.domain = domain ∧ address.bus.toUInt32 = bus ∧ address.device.toUInt32 = device ∧
      address.function.toUInt32 = function := by
  obtain ⟨inRange, rfl⟩ := ofNumbers_eq_ok_iff.mp built
  obtain ⟨_, _, bus_le, device_le, function_le⟩ := inRange_iff.mp inRange
  refine ⟨rfl, ?_, ?_, ?_⟩ <;> apply UInt32.toNat_inj.mp <;> rw [UInt8.toNat_toUInt32]
  · rw [toNat_bus, toNat_pack inRange]
    omega
  · rw [toNat_device, toNat_pack inRange]
    omega
  · rw [toNat_function, toNat_pack inRange]
    omega

/-! ### The grammar -/

/-- The form of an address, with its four numbers. A domain that is left out is 0. -/
inductive Spells : List Char → (domain bus device function : Nat) → Prop
  | whole {first second third last : List Char} {domain bus device function : Nat}
      (domainWritten : Writes 16 first domain) (busWritten : Writes 16 second bus)
      (deviceWritten : Writes 16 third device) (functionWritten : Writes 10 last function) :
      Spells (first ++ ':' :: second ++ ':' :: third ++ '.' :: last) domain bus device function
  | short {second third last : List Char} {bus device function : Nat}
      (busWritten : Writes 16 second bus) (deviceWritten : Writes 16 third device)
      (functionWritten : Writes 10 last function) :
      Spells (second ++ ':' :: third ++ '.' :: last) 0 bus device function

/-- Numbers between colons are read in base sixteen. -/
theorem mapM_all_eq_some_iff {front : List Char} {words : List UInt32} (nonempty : words ≠ []) :
    (Cut.all ':' front).mapM (readWord? 16) = some words ↔
      ∃ pieces, List.Forall₂ (fun piece word => Writes 16 piece word.toNat) pieces words ∧
        front = [':'].intercalate pieces := by
  rw [mapM_readWord?_eq_some_iff (by decide), Cut.all_eq_splitOn]
  constructor
  · intro each
    exact ⟨_, each, (List.intercalate_splitOn ':').symm⟩
  · rintro ⟨pieces, each, rfl⟩
    have digits : List.Forall₂ (fun piece word => ':' ∉ piece ∧ Writes 16 piece word.toNat)
        pieces words := each.imp fun _ _ written => ⟨written.absent (by decide), written⟩
    rw [List.splitOn_intercalate ':' ((List.forall₂_and_left pieces words).mp digits).1]
    · exact each
    · rintro rfl
      exact nonempty (List.forall₂_nil_left_iff.mp each)

theorem joined_two (second third : List Char) :
    [':'].intercalate [second, third] = second ++ ':' :: third := by
  simp [List.intercalate]

theorem joined_three (first second third : List Char) :
    [':'].intercalate [first, second, third] = first ++ ':' :: second ++ ':' :: third := by
  simp [List.intercalate]

theorem toOption_ofNumbers_eq_some_iff :
    (ofNumbers domain bus device function).toOption = some address ↔
      ofNumbers domain bus device function = .ok address := by
  cases ofNumbers domain bus device function with
  | ok built => exact Option.some_inj.trans (Except.ok.injEq _ _).symm.to_iff
  | error _ => exact iff_of_false nofun nofun

/-- What is read is short and of the form, and its numbers have been checked. -/
theorem spells_of_parse? {text : String} (read : parse? text = some address) :
    text.utf8ByteSize < maxTextBytes ∧ ∃ domain bus device function : UInt32,
      Spells text.toList domain.toNat bus.toNat device.toNat function.toNat ∧
        ofNumbers domain bus device function = .ok address := by
  rw [parse?, Option.ite_none_left_eq_some, ge_iff_le, Nat.not_le] at read
  obtain ⟨limit, read⟩ := read
  refine ⟨limit, ?_⟩
  split at read
  next => cases read
  next front last cut =>
    obtain ⟨whole, _⟩ := Cut.last?_eq_some_iff.mp cut
    rw [whole]
    split at read
    next function domain bus device lastRead frontRead =>
      have functionWritten := (readWord?_eq_some_iff (by decide)).mp lastRead
      obtain ⟨pieces, each, rfl⟩ := (mapM_all_eq_some_iff (List.cons_ne_nil _ _)).mp frontRead
      rcases each with - | ⟨domainWritten, - | ⟨busWritten, - | ⟨deviceWritten, - | -⟩⟩⟩
      rw [joined_three]
      exact ⟨domain, bus, device, function,
        .whole domainWritten busWritten deviceWritten functionWritten,
        toOption_ofNumbers_eq_some_iff.mp read⟩
    next function bus device lastRead frontRead =>
      have functionWritten := (readWord?_eq_some_iff (by decide)).mp lastRead
      obtain ⟨pieces, each, rfl⟩ := (mapM_all_eq_some_iff (List.cons_ne_nil _ _)).mp frontRead
      rcases each with - | ⟨busWritten, - | ⟨deviceWritten, - | -⟩⟩
      rw [joined_two]
      exact ⟨0, bus, device, function, .short busWritten deviceWritten functionWritten,
        toOption_ofNumbers_eq_some_iff.mp read⟩
    next => cases read

/-- A short text of the form is read as the address of its numbers. -/
theorem parse?_of_spells {text : String} (limit : text.utf8ByteSize < maxTextBytes)
    (spells : Spells text.toList domain.toNat bus.toNat device.toNat function.toNat)
    (built : ofNumbers domain bus device function = .ok address) : parse? text = some address := by
  rw [parse?, if_neg (Nat.not_le.mpr limit)]
  generalize text.toList = characters at spells
  generalize number : domain.toNat = domainNumber at spells
  cases spells with
  | whole domainWritten busWritten deviceWritten functionWritten =>
    have lastRead := (readWord?_eq_some_iff (by decide)).mpr functionWritten
    have frontRead := (mapM_all_eq_some_iff (List.cons_ne_nil domain [bus, device])).mpr
      ⟨_, .cons (number ▸ domainWritten) (.cons busWritten (.cons deviceWritten .nil)), rfl⟩
    rw [joined_three] at frontRead
    rw [Cut.last?_eq_some_iff.mpr ⟨rfl, functionWritten.absent (by decide)⟩]
    dsimp only
    rw [lastRead, frontRead]
    exact toOption_ofNumbers_eq_some_iff.mpr built
  | short busWritten deviceWritten functionWritten =>
    obtain rfl : domain = 0 := UInt32.toNat_inj.mp number
    have lastRead := (readWord?_eq_some_iff (by decide)).mpr functionWritten
    have frontRead := (mapM_all_eq_some_iff (List.cons_ne_nil bus [device])).mpr
      ⟨_, .cons busWritten (.cons deviceWritten .nil), rfl⟩
    rw [joined_two] at frontRead
    rw [Cut.last?_eq_some_iff.mpr ⟨rfl, functionWritten.absent (by decide)⟩]
    dsimp only
    rw [lastRead, frontRead]
    exact toOption_ofNumbers_eq_some_iff.mpr built

/-! ### The text of an address -/

theorem toList_render (address : PciAddress) :
    address.render.toList =
      paddedDigits 16 4 address.domain.toNat ++ ':' :: paddedDigits 16 2 address.bus.toNat ++
        ':' :: paddedDigits 16 2 address.device.toNat ++
          '.' :: digits 10 address.function.toNat := by
  simp [render, paddedHexadecimal, decimal]

theorem spells_render (address : PciAddress) :
    Spells address.render.toList address.domain.toNat address.bus.toNat address.device.toNat
      address.function.toNat := by
  have padded (width number : Nat) : Writes 16 (paddedDigits 16 width number) number :=
    (writes_digits (by decide) (by decide) number).behind_zeros (by decide) _
  rw [toList_render]
  exact .whole (padded 4 _) (padded 2 _) (padded 2 _) (writes_digits (by decide) (by decide) _)

/-- Every character of the form takes one byte. -/
theorem Spells.utf8Size_eq_one {text : List Char} {domain bus device function : Nat}
    (spells : Spells text domain bus device function) :
    ∀ character ∈ text, character.utf8Size = 1 := by
  have single : (smallDigits ++ capitalDigits).all (fun digit => digit.utf8Size == 1) = true :=
    rfl
  have digits {base number : Nat} {text : List Char} (written : Writes base text number) :
      ∀ character ∈ text, character.utf8Size = 1 := fun character member =>
    eq_of_beq (List.all_eq_true.mp single character (written.mem character member))
  cases spells with
  | whole domainWritten busWritten deviceWritten functionWritten =>
    simp only [List.forall_mem_append, List.forall_mem_cons]
    exact ⟨⟨⟨digits domainWritten, rfl, digits busWritten⟩, rfl, digits deviceWritten⟩, rfl,
      digits functionWritten⟩
  | short busWritten deviceWritten functionWritten =>
    simp only [List.forall_mem_append, List.forall_mem_cons]
    exact ⟨⟨digits busWritten, rfl, digits deviceWritten⟩, rfl, digits functionWritten⟩

/-- The text of an address whose domain and function have their usual digits is short. -/
theorem utf8ByteSize_render_lt (domain_lt : address.domain.toNat < 16 ^ 4)
    (function_lt : address.function.toNat < 10) :
    address.render.utf8ByteSize < maxTextBytes := by
  have byte (value : UInt8) : (paddedDigits 16 2 value.toNat).length = 2 :=
    length_paddedDigits (by decide) (by decide) value.toNat_lt
  have last : (digits 10 address.function.toNat).length = 1 :=
    congrArg List.length (Nat.toDigits_of_lt_base function_lt)
  have length : address.render.toList.length = 12 := by
    rw [toList_render]
    simp only [List.length_append, List.length_cons, byte, last,
      length_paddedDigits (by decide) (by decide) domain_lt]
  rw [← String.ofList_toList (s := address.render),
    utf8ByteSize_ofList address.spells_render.utf8Size_eq_one, length]
  decide

/-- The text of an address that was built from its numbers is read as this address. -/
theorem parse?_render (built : ofNumbers domain bus device function = .ok address) :
    parse? address.render = some address := by
  obtain ⟨domainSame, busSame, deviceSame, functionSame⟩ := numbers_of_ofNumbers built
  obtain ⟨domain_le, _, _, _, function_le⟩ := inRange_iff.mp (ofNumbers_eq_ok_iff.mp built).1
  have spells := spells_render address
  rw [← UInt8.toNat_toUInt32 address.bus, ← UInt8.toNat_toUInt32 address.device,
    ← UInt8.toNat_toUInt32 address.function, domainSame, busSame, deviceSame,
    functionSame] at spells
  refine parse?_of_spells (utf8ByteSize_render_lt ?_ ?_) spells built
  · rw [domainSame]
    omega
  · rw [← UInt8.toNat_toUInt32, functionSame]
    omega

/-! ### Reading and writing -/

/-- A text is read as an address exactly if it is shorter than 16 bytes and has the form of an
address, its numbers fit and they are those of the address. Four numbers are what an address is
built from exactly if they fit, are what the address gives back, and its text is read as the
address. So writing an address that was read, and reading it again, changes nothing. -/
theorem address_reads :
    (∀ text address, parse? text = some address ↔
      text.utf8ByteSize < 16 ∧ ∃ domain bus device function,
        Spells text.toList domain bus device function ∧
          domain ≤ 0xffff ∧ 1 ≤ bus ∧ bus ≤ 0xff ∧ device ≤ 0x1f ∧ function ≤ 7 ∧
          address.domain.toNat = domain ∧
          address.packed.toNat = function + 2 ^ 8 * device + 2 ^ 16 * bus) ∧
    (∀ domain bus device function address,
      ofNumbers domain bus device function = .ok address ↔
        InRange domain bus device function ∧ parse? address.render = some address ∧
          address.domain = domain ∧ address.bus.toUInt32 = bus ∧
          address.device.toUInt32 = device ∧ address.function.toUInt32 = function) ∧
    ∀ text, (parse? text).bind (fun address => parse? address.render) = parse? text := by
  refine ⟨fun text address => ⟨fun read => ?_, ?_⟩,
    fun domain bus device function address => ⟨fun built => ?_, ?_⟩, fun text => ?_⟩
  · obtain ⟨limit, domain, bus, device, function, spells, built⟩ := spells_of_parse? read
    obtain ⟨inRange, rfl⟩ := ofNumbers_eq_ok_iff.mp built
    obtain ⟨domain_le, one_le, bus_le, device_le, function_le⟩ := inRange_iff.mp inRange
    exact ⟨limit, _, _, _, _, spells, domain_le, one_le, bus_le, device_le, function_le, rfl,
      toNat_pack inRange⟩
  · rintro ⟨limit, domain, bus, device, function, spells, domain_le, one_le, bus_le, device_le,
      function_le, domainSame, packedSame⟩
    have exists_word (number : Nat) (fits : number < UInt32.size) :
        ∃ word : UInt32, word.toNat = number := ⟨_, UInt32.toNat_ofNat_of_lt' fits⟩
    obtain ⟨domain, rfl⟩ := exists_word domain (domain_le.trans_lt (by decide))
    obtain ⟨bus, rfl⟩ := exists_word bus (bus_le.trans_lt (by decide))
    obtain ⟨device, rfl⟩ := exists_word device (device_le.trans_lt (by decide))
    obtain ⟨function, rfl⟩ := exists_word function (function_le.trans_lt (by decide))
    have inRange := inRange_iff.mpr ⟨domain_le, one_le, bus_le, device_le, function_le⟩
    have same : address = ⟨domain, pack bus device function⟩ := by
      rw [PciAddress.mk.injEq, ← UInt32.toNat_inj, ← UInt32.toNat_inj, toNat_pack inRange]
      exact ⟨domainSame, packedSame⟩
    exact parse?_of_spells limit spells (ofNumbers_eq_ok_iff.mpr ⟨inRange, same⟩)
  · exact ⟨(ofNumbers_eq_ok_iff.mp built).1, parse?_render built, numbers_of_ofNumbers built⟩
  · rintro ⟨_, read, rfl, rfl, rfl, rfl⟩
    obtain ⟨_, domain, bus, device, function, _, built⟩ := spells_of_parse? read
    obtain ⟨rfl, rfl, rfl, rfl⟩ := numbers_of_ofNumbers built
    exact built
  · cases read : parse? text with
    | none => rfl
    | some address =>
      obtain ⟨_, _, _, _, _, _, built⟩ := spells_of_parse? read
      rw [Option.bind_some, parse?_render built]

end PciAddress

end NicScope
