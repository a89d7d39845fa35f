/-
Single bits and bit fields of a word. A field is named by its highest and its
lowest bit; its mask has exactly these bits set. Counts are added up without
wrapping: a sum that has no 32 bits stays at the largest word.
-/

import NicScope.Wire.Error

namespace NicScope.Bits

/-- Bit `bit` of `word`, which has bits 0 to 31. -/
def bit? (word : UInt32) (bit : UInt8) : Except DecodeError Bool :=
  if bit > 31 then .error .bitOutOfRange else .ok (word.toNat.testBit bit.toNat)

/-- The word with bits `high` down to `low` set, for `high` at most 63. -/
def mask (high low : UInt32) : UInt64 :=
  ((0xffffffffffffffff : UInt64) >>> (63 - high).toUInt64) &&&
    ((0xffffffffffffffff : UInt64) <<< low.toUInt64)

/-- The bits of `word` that `mask` covers, shifted down by `shift`. -/
def field (word mask : UInt64) (shift : UInt32) : UInt64 :=
  (word &&& mask) >>> shift.toUInt64

/-- The sum of two words, or the largest word where the sum has no 32 bits. -/
def saturatingAdd (first second : UInt32) : UInt32 :=
  UInt32.ofNat (min (first.toNat + second.toNat) (UInt32.size - 1))

/-- Bit `bit` of a 32-bit word. -/
def flag (word : UInt32) (bit : Nat) : Bool :=
  word.toNat.testBit bit

end NicScope.Bits
