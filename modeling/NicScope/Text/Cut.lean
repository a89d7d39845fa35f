/-
Cutting a text at a separator: at all of them, or at the last one.
-/

namespace NicScope.Cut

/-- The pieces between the separators, one more than there are separators. -/
def all (separator : Char) : List Char → List (List Char)
  | [] => [[]]
  | character :: rest =>
    if character = separator then [] :: all separator rest
    else match all separator rest with
      | first :: others => (character :: first) :: others
      | [] => [[character]]

/-- What comes before and after the last separator. -/
def last? (separator : Char) : List Char → Option (List Char × List Char)
  | [] => none
  | character :: rest =>
    match last? separator rest with
    | some (before, behind) => some (character :: before, behind)
    | none => if character = separator then some ([], rest) else none

end NicScope.Cut
