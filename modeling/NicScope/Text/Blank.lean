/-
Blank characters, the Unicode property `White_Space`, and trimming them from
the ends of a text.
-/

namespace NicScope.Blank

/-- The code points of `White_Space`, as first and last of each range. -/
def ranges : List (Nat × Nat) :=
  [(0x9, 0xd), (0x20, 0x20), (0x85, 0x85), (0xa0, 0xa0), (0x1680, 0x1680), (0x2000, 0x200a),
    (0x2028, 0x2029), (0x202f, 0x202f), (0x205f, 0x205f), (0x3000, 0x3000)]

def isBlank (character : Char) : Bool :=
  ranges.any fun range => range.1 ≤ character.toNat && character.toNat ≤ range.2

/-- Drops the blanks that `text` begins with. -/
def trimStart (text : List Char) : List Char :=
  text.dropWhile isBlank

/-- Drops the blanks that `text` ends with. -/
def trimEnd (text : List Char) : List Char :=
  (text.reverse.dropWhile isBlank).reverse

def trim (text : List Char) : List Char :=
  trimEnd (trimStart text)

end NicScope.Blank
