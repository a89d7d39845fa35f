/-
Bytes and words. Everything on the wire is little-endian: a number of a given
width is its base-256 digits, least significant first. A request or response is
an array of 32-bit words, which is the same as the array of their bytes; bytes
that do not fill the last word are followed by zeroes.
-/

namespace NicScope

/-- A run of bytes, in wire order. -/
abbrev Bytes := List UInt8

namespace Bytes

/-- The number whose base-256 digits, least significant first, are `bytes`. -/
def toNat : Bytes → Nat
  | [] => 0
  | byte :: rest => byte.toNat + 256 * toNat rest

/-- The `width` lowest base-256 digits of `number`, least significant first. -/
def ofNat : (width number : Nat) → Bytes
  | 0, _ => []
  | width + 1, number => UInt8.ofNat number :: ofNat width (number / 256)

/-- The bytes of an array of words. -/
def ofWords (words : List UInt32) : Bytes :=
  words.flatMap fun word => ofNat 4 word.toNat

/-- The words holding `bytes`; the last one is filled up with zeroes. -/
def toWords : Bytes → List UInt32
  | [] => []
  | first :: second :: third :: fourth :: rest =>
    UInt32.ofNat (toNat [first, second, third, fourth]) :: toWords rest
  | short => [UInt32.ofNat (toNat short)]

/-- The bytes in one word. -/
def wordSize : Nat := 4

/-- How many words `length` bytes take. -/
def wordsFor (length : Nat) : Nat :=
  (length + (wordSize - 1)) / wordSize

/-- Cuts or zero-fills `bytes` to exactly `length`. -/
def resize (length : Nat) (bytes : Bytes) : Bytes :=
  bytes.take length ++ List.replicate (length - bytes.length) 0

/-! ### Widths -/

theorem length_ofNat (width number : Nat) : (ofNat width number).length = width := by
  induction width generalizing number with
  | zero => rfl
  | succ width inductionHypothesis => simp [ofNat, inductionHypothesis]

theorem ofNat_toNat (bytes : Bytes) : ofNat bytes.length (toNat bytes) = bytes := by
  induction bytes with
  | nil => rfl
  | cons byte rest inductionHypothesis =>
    have bound : byte.toNat < 256 := byte.toNat_lt
    have quotient : (byte.toNat + 256 * toNat rest) / 256 = toNat rest := by omega
    have digit : UInt8.ofNat (byte.toNat + 256 * toNat rest) = byte := by
      apply UInt8.toNat_inj.mp
      simp
    simp only [toNat, List.length_cons, ofNat, quotient, digit, inductionHypothesis]

theorem length_resize (length : Nat) (bytes : Bytes) : (resize length bytes).length = length := by
  simp only [resize, List.length_append, List.length_take, List.length_replicate]
  omega

end Bytes

end NicScope
