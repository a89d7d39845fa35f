/-
The device function that a command is about, given as its address or by the name
of its network interface. The system publishes for each interface a link to its
device, which ends with the address, and from the device a link to its driver;
only interfaces of one driver can be named.
-/

import NicScope.Host.FileTree
import NicScope.Wire.Address

namespace NicScope

/-- A device function, with the interface name if it was given by one. -/
structure Target where
  address : PciAddress
  interface : Option String
  deriving DecidableEq, Repr

namespace Target

/-- What a command is about before it is told. -/
def unset : Target := ⟨.zero, none⟩

/-- Refuses a virtual function: a physical one has device number 0. -/
def requirePhysical (target : Target) : Except Error Unit :=
  if target.address.device = 0 then .ok () else .error .virtualFunction

/-- The name at the end of what the link at `path` leads to. -/
def linkName? (files : FileTree) (path : String) : Option String :=
  match files.readLink path with
  | .ok target => Path.fileName? target
  | .error _ => none

/-- The driver whose interfaces can be named. -/
def driver : String := "hns3"

/-- Finds the function behind an interface name. -/
def ofInterface (files : FileTree) (systemRoot name : String) : Except Error Target :=
  let unsupported := Error.invalidArgument "device name error or unsupported."
  if name.utf8ByteSize ≥ PciAddress.maxTextBytes then
    .error (.invalidArgument "parameter of target name is too long.")
  else if name.isEmpty || name.toList.contains '/' then .error unsupported
  else
    let device := Path.join (Path.join (Path.join systemRoot "class/net") name) "device"
    match (linkName? files device).bind PciAddress.parse? with
    | none => .error unsupported
    | some address =>
      if linkName? files (Path.join device "driver") = some driver then
        .ok ⟨address, some name⟩
      else .error unsupported

/-- Finds the function that `name` stands for. -/
def resolve (files : FileTree) (systemRoot name : String) : Except Error Target :=
  match PciAddress.parse? name with
  | some address => .ok ⟨address, none⟩
  | none =>
    match ofInterface files systemRoot name with
    | .ok target => .ok target
    | .error cause => .error (.unresolvedDevice cause)

end Target

end NicScope
