/-
The option that names the target of a command, which every network command has.
-/

import NicScope.Command.Basic
import NicScope.Target

namespace NicScope

namespace Interface

/-- The option; `place` puts the target into the context. -/
def option {γ : Type} (files : FileTree) (systemRoot : String)
    (place : Target → γ → γ) : CommandOption γ where
  short := "-i"
  long := "--interface"
  takesParameter := true
  handle := fun
    | none => throw .unknownDevice
    | some name =>
      match Target.resolve files systemRoot name with
      | .ok target => modify (place target)
      | .error cause => throw cause

/-- The help line of the option, after `indent`. -/
def helpLine (indent : String) : String :=
  indent ++ "-i, " ++ Column.left 25 "--interface=<interface>" ++
    " device target or bdf id, e.g. eth0~7 or 0000:35:00.0\n"

end Interface

end NicScope
