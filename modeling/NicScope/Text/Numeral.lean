/-
Numbers as digit text. A number is written in base ten or sixteen, lower case
and without leading zeroes, or with zeroes up to a least width; text is read
back digit by digit, letters of either case counting from ten. Reading refuses
an empty text and any character that is no digit of the base.
-/

namespace NicScope.Numeral

/-! ### Reading -/

/-- The value of `character` as a digit of `base`, which is at most sixteen. -/
def digitValue? (base : Nat) (character : Char) : Option Nat :=
  let value :=
    if '0' ≤ character ∧ character ≤ '9' then character.toNat - '0'.toNat
    else if 'a' ≤ character ∧ character ≤ 'f' then character.toNat - 'a'.toNat + 10
    else if 'A' ≤ character ∧ character ≤ 'F' then character.toNat - 'A'.toNat + 10
    else base
  if value < base then some value else none

/-- Continues a number, of which `total` has been read, with further digits. -/
def continueDigits? (base : Nat) : Nat → List Char → Option Nat
  | total, [] => some total
  | total, digit :: rest =>
    match digitValue? base digit with
    | some value => continueDigits? base (base * total + value) rest
    | none => none

/-- The number that a non-empty run of digits writes. -/
def readDigits? (base : Nat) (digits : List Char) : Option Nat :=
  if digits.isEmpty then none else continueDigits? base 0 digits

/-- The 32-bit number that a non-empty run of digits writes. -/
def readWord? (base : Nat) (digits : List Char) : Option UInt32 :=
  match readDigits? base digits with
  | some value => if value < UInt32.size then some (UInt32.ofNat value) else none
  | none => none

/-! ### Writing -/

/-- The digits of `number`, most significant first; zero has one digit. -/
def digits (base number : Nat) : List Char :=
  Nat.toDigits base number

def decimal (number : Nat) : String :=
  String.ofList (digits 10 number)

def hexadecimal (number : Nat) : String :=
  String.ofList (digits 16 number)

/-- The digits of `number` with zeroes in front up to `width`. -/
def paddedDigits (base width number : Nat) : List Char :=
  let plain := digits base number
  List.replicate (width - plain.length) '0' ++ plain

def paddedDecimal (width number : Nat) : String :=
  String.ofList (paddedDigits 10 width number)

def paddedHexadecimal (width number : Nat) : String :=
  String.ofList (paddedDigits 16 width number)

/-- A signed number in base ten. -/
def signedDecimal (number : Int) : String :=
  if number < 0 then "-" ++ decimal number.natAbs else decimal number.natAbs

end NicScope.Numeral
