/-
Features: the views that a command can show. Each has a name on the command line
and a subcommand of the firmware, and some need the sizes of the hardware first.
-/

import NicScope.Error.Basic

namespace NicScope

structure Feature (κ : Type) where
  name : String
  subcommand : UInt32
  /-- Whether the sizes of the hardware must be asked for first. -/
  needsSizes : Bool
  kind : κ
  deriving DecidableEq, Repr

namespace Feature

variable {κ : Type}

/-- The feature with exactly this name. -/
def lookup (table : List (Feature κ)) (name : String) : Option (Feature κ) :=
  table.find? fun feature => feature.name == name

/-- The feature with exactly this name; without one, what went wrong is told after
the help of the command. -/
def select (table : List (Feature κ)) (name : Option String) (complaint : String) :
    Except Error (Feature κ) :=
  match name.bind (lookup table) with
  | some feature => .ok feature
  | none => .error (.usage complaint)

end Feature

end NicScope
