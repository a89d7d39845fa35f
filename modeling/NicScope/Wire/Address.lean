/-
The PCI address of a device function. On the wire it is a domain and one word
that packs the function in bits 0 to 7, the device in bits 8 to 15 and the bus
in bits 16 to 23. An address built from its four numbers is checked against
their PCI widths; bus 0 hosts no network function and is refused too. The text of an
address is short, and reading it refuses whatever writing could not mean.
-/

import NicScope.Text.Cut
import NicScope.Text.Numeral

namespace NicScope

open Numeral

/-- A PCI domain with a packed bus, device and function. -/
structure PciAddress where
  domain : UInt32
  packed : UInt32
  deriving DecidableEq, Repr, Inhabited

/-- Four numbers that are no PCI address. -/
structure InvalidAddress where
  domain : UInt32
  bus : UInt32
  device : UInt32
  function : UInt32
  deriving DecidableEq, Repr

namespace PciAddress

/-- The address that names nothing, all numbers zero. -/
def zero : PciAddress := ⟨0, 0⟩

/-- Whether four numbers fit their PCI widths, with a bus other than 0. -/
def InRange (domain bus device function : UInt32) : Prop :=
  domain ≤ 0xffff ∧ bus ≠ 0 ∧ bus ≤ 0xff ∧ device ≤ 0x1f ∧ function ≤ 7

instance (domain bus device function : UInt32) :
    Decidable (InRange domain bus device function) := by
  unfold InRange; infer_instance

/-- Bus, device and function in one word. -/
def pack (bus device function : UInt32) : UInt32 :=
  function ||| (device <<< 8) ||| (bus <<< 16)

def ofNumbers (domain bus device function : UInt32) : Except InvalidAddress PciAddress :=
  if InRange domain bus device function then .ok ⟨domain, pack bus device function⟩
  else .error ⟨domain, bus, device, function⟩

def bus (address : PciAddress) : UInt8 :=
  (address.packed >>> 16).toUInt8

def device (address : PciAddress) : UInt8 :=
  (address.packed >>> 8).toUInt8

def function (address : PciAddress) : UInt8 :=
  address.packed.toUInt8

/-- The usual text of an address: hexadecimal but for the decimal function. -/
def render (address : PciAddress) : String :=
  paddedHexadecimal 4 address.domain.toNat ++ ":" ++ paddedHexadecimal 2 address.bus.toNat ++ ":" ++
    paddedHexadecimal 2 address.device.toNat ++ "." ++ decimal address.function.toNat

/-- The text of an address is shorter than this many bytes. -/
def maxTextBytes : Nat := 16

/-- Reads domain, bus, device and function, or the last three for domain 0. -/
def parse? (text : String) : Option PciAddress :=
  if text.utf8ByteSize ≥ maxTextBytes then none
  else match Cut.last? '.' text.toList with
    | none => none
    | some (front, last) =>
      match readWord? 10 last, (Cut.all ':' front).mapM (readWord? 16) with
      | some function, some [domain, bus, device] =>
        (ofNumbers domain bus device function).toOption
      | some function, some [bus, device] => (ofNumbers 0 bus device function).toOption
      | _, _ => none

end PciAddress

def InvalidAddress.message (numbers : InvalidAddress) : String :=
  "Invalid PCI address: " ++ hexadecimal numbers.domain.toNat ++ ":" ++
    hexadecimal numbers.bus.toNat ++ ":" ++ hexadecimal numbers.device.toNat ++ "." ++
    decimal numbers.function.toNat

end NicScope
