/-
The program on a real host. The files that it looks at are taken into a tree, the
program runs on the tree, and what it changed there is put back. The clock and the
registers are as they were when the files were taken in, so a run takes no time.
-/

import NicScope.CommandLine

namespace NicScope.Main

/-! ### Taking files in -/

/-- Changes a tree by an action, even if that fails. -/
def apply (action : FileAction Unit) (files : FileTree) : FileTree :=
  (action.run files).2

/-- Takes a file in, if it can be read. -/
def takeFile (files : FileTree) (path : String) : IO FileTree := do
  try
    let content ← IO.FS.readBinFile path
    return apply (do
      FileAction.ensureAll (Path.parents path)
      FileAction.writeFile path 0o644 content.toList) files
  catch _ => return files

/-- Takes a link in, if it leads anywhere. -/
def takeLink (files : FileTree) (path : String) : IO FileTree := do
  try
    let target ← IO.FS.realPath path
    return apply (do
      FileAction.ensureAll (Path.parents path)
      FileAction.makeLink path target.toString) files
  catch _ => return files

/-- The names in a directory, none if it cannot be read. -/
def namesIn (path : String) : IO (List String) := do
  try
    let directory ← IO.FS.realPath path
    return (← directory.readDir).toList.map (·.fileName)
  catch _ => return []

/-- Takes in what tells the function behind an interface. -/
def takeInterface (systemRoot : String) (files : FileTree) (name : String) : IO FileTree := do
  let device := Path.join systemRoot ("class/net/" ++ name ++ "/device")
  let files ← takeLink files device
  match files.readLink device with
  | .ok address => takeLink files (Path.join address "driver")
  | .error _ => return files

/-- Takes in what tells a device and opens it. -/
def takeDevice (settings : Settings) (files : FileTree) (name : String) : IO FileTree :=
  ["vendor", "device", "revision", "config", "resource0"].foldlM
    (fun files file =>
      takeFile files (Path.join (Path.join (Discovery.devicesPath settings) name) file)) files

/-- Takes in all files that a run may look at. -/
def takeAll (settings : Settings) (files : FileTree) : IO FileTree := do
  let interfaces ← namesIn (Path.join settings.systemRoot "class/net")
  let devices ← namesIn (Discovery.devicesPath settings)
  let logs := ["operations.log", "operations.log.old"].map (Path.join settings.logDirectory)
  let files ← (Chip.registerPath settings.systemRoot :: logs).foldlM takeFile files
  let files ← interfaces.foldlM (takeInterface settings.systemRoot) files
  devices.foldlM (takeDevice settings) files

/-! ### Putting files back -/

/-- Who may do what, from the last three bits of a mode. -/
def rights (mode : Nat) : IO.AccessRight :=
  ⟨mode.testBit 2, mode.testBit 1, mode.testBit 0⟩

/-- Puts a node back that is not as it was. -/
def putNode (before : FileTree) (entry : Key × Node) : IO Unit := do
  let path := "/" ++ "/".intercalate entry.1
  if before.lookup entry.1 = some entry.2 then return
  match entry.2 with
  | .directory => IO.FS.createDirAll path
  | .file mode content =>
    IO.FS.writeBinFile path content.toByteArray
    IO.setAccessRights path ⟨rights (mode / 64), rights (mode / 8), rights mode⟩
  | .link _ => return

/-- Puts back what a run has changed; directories come before what is in them. -/
def putAll (before after : FileTree) : IO Unit := do
  for entry in before.nodes do
    if (after.lookup entry.1).isNone then
      IO.FS.removeFile ("/" ++ "/".intercalate entry.1)
  let ordered := after.nodes.mergeSort fun first second => first.1.length ≤ second.1.length
  for entry in ordered do
    putNode before entry

/-! ### Running -/

/-- The host, with the number of the process and the time at which it began. -/
def takeHost (settings : Settings) : IO Host := do
  let start : FileTree := ⟨[], Path.components (← IO.currentDir).toString⟩
  let files ← takeAll settings start
  let self ← IO.FS.realPath "/proc/self"
  let began := (← self.metadata).modified
  let process := UInt32.ofNat ((self.fileName.bind String.toNat?).getD 0)
  let moment : Moment := ⟨began.sec.toNat * 1000000 + began.nsec.toNat / 1000, 0⟩
  return { files, locks := [], log := [], clock := fun _ => moment, readings := 0, process }

/-- Runs the program on the host and answers with its exit code. -/
def run (arguments : List String) : IO UInt8 := do
  match (CommandLine.read? arguments).bind fun line =>
    line.choices.build.toOption.map fun settings => (line, settings) with
  | none => return CommandLine.badUsage
  | some (line, settings) =>
    let host ← takeHost settings
    let ending := CommandLine.run arguments host
    IO.print ending.output
    for record in ending.host.log do
      if record.level.gravity ≤ line.verbosity then IO.eprintln record.render
    putAll host.files ending.host.files
    return ending.code

end NicScope.Main

def main (arguments : List String) : IO UInt32 := do
  return (← NicScope.Main.run arguments).toUInt32
