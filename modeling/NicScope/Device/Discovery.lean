/-
Finding and opening the device. The system publishes each device as a directory
with small files that name its vendor, its kind and its revision. The device is
the first directory, in the order of names, whose vendor and kind are the ones
looked for; a foreign revision is only noted. To open it, the file of its
registers is opened and mapped, access to its memory is turned on in its
configuration and its lock is taken, before anything is written to a register.
-/

import NicScope.Device.Window
import NicScope.Host.Basic
import NicScope.Settings
import NicScope.Text.Blank

namespace NicScope

namespace Discovery

/-- Whether the file at `path` begins with the text `expected`, blanks at its end
not counted. -/
def idMatches (files : FileTree) (path expected : String) : Bool :=
  match files.readText? path with
  | some text => expected.toList.isPrefixOf (Blank.trimEnd text.toList)
  | none => false

/-- A vendor or a kind as it is published. -/
def idText (id : UInt16) : String :=
  "0x" ++ Numeral.paddedHexadecimal 4 id.toNat

/-- A revision as it is published. -/
def revisionText (revision : UInt8) : String :=
  "0x" ++ Numeral.paddedHexadecimal 2 revision.toNat

/-- Whether the device in `directory` is the one looked for. -/
def isWanted (settings : Settings) (files : FileTree) (directory : String) : Bool :=
  idMatches files (Path.join directory "device") (idText settings.device) &&
    idMatches files (Path.join directory "vendor") (idText settings.vendor)

/-- Whether the revision of the device in `directory` is the one expected. -/
def hasRevision (settings : Settings) (files : FileTree) (directory : String) : Bool :=
  idMatches files (Path.join directory "revision") (revisionText settings.revision)

/-- Where the system publishes its devices. -/
def devicesPath (settings : Settings) : String :=
  Path.join settings.systemRoot "bus/pci/devices"

/-- Names in order, without the hidden ones. -/
def visible (names : List String) : List String :=
  (names.filter fun name => name.toList.head? != some '.').mergeSort fun first second =>
    decide (first ≤ second)

/-- The first directory of the device looked for. -/
def find (settings : Settings) (files : FileTree) : Option String :=
  match files.list (devicesPath settings) with
  | .ok names =>
    ((visible names).map (Path.join (devicesPath settings))).find? (isWanted settings files)
  | .error _ => none

/-- Finds the directory of the device, and notes a revision that is not the one
expected. -/
def discover (settings : Settings) : HostAction String := do
  let files := (← get).files
  match find settings files with
  | none => throw (.deviceNotFound settings.vendor settings.device)
  | some directory =>
    if !hasRevision settings files directory then
      modify (·.note
        (.warning ("Revision id not match " ++ revisionText settings.revision ++ ".")))
    return directory

/-- Turns on bit 1 of byte 4 of a configuration, the access to memory. -/
def enableMemory (path : String) : HostAction Unit := do
  let key ← Host.onFiles (FileAction.openFile path)
  let content ← Host.onFiles (FileAction.look (·.read path))
  match content[4]? with
  | none => throw (.io .endOfFile)
  | some command => Host.onFiles (FileAction.update key (·.set 4 (command ||| 2)))

end Discovery

/-! ### Registers in a file -/

namespace FileWindow

/-- Maps the file at `key` into memory, unless the system refuses to. -/
def map (key : Key) : HostAction Unit := do
  match (← get).unmapped key with
  | some errno => throw (.system errno)
  | none => return

/-- Reads a register from bytes; what is beyond their end is zero. -/
def readBytes (bytes : Bytes) (register : Nat) : UInt32 :=
  UInt32.ofNat (Bytes.toNat ((bytes.drop (4 * register)).take 4))

/-- Writes a register to bytes, behind which there are zeros if they do not reach so
far. -/
def writeBytes (bytes : Bytes) (register : Nat) (value : UInt32) : Bytes :=
  let padded := bytes ++ List.replicate (4 * register + 4 - bytes.length) 0
  padded.take (4 * register) ++ Bytes.ofNat 4 value.toNat ++ padded.drop (4 * register + 4)

/-- The window whose registers are the words of the file at `key`. The file keeps its
length; registers behind its end are in its margin. -/
def window (key : Key) : Window Host where
  read register := fun host =>
    match host.files.lookup key with
    | some (.file _ content) => (readBytes (content ++ host.margin key) register, host)
    | _ => (0, host)
  write register value := fun host =>
    match host.files.lookup key with
    | some (.file mode content) =>
      let written := writeBytes (content ++ host.margin key) register value
      let file := Node.file mode (written.take content.length)
      let host := host.setMargin key (written.drop content.length)
      ((), { host with files := host.files.insert key file })
    | _ => ((), host)

end FileWindow

/-- A device that is held, by the file of its registers. -/
structure OpenDevice where
  key : Key
  polls : Nat

namespace OpenDevice

/-- Takes the lock of the file at `key`, if nothing is in its way. -/
def tryLock (key : Key) : StateM Host Bool := do
  match (← get).refusal? key with
  | some _ => return false
  | none =>
    modify (·.lock key)
    return true

/-- Tries to take the lock of the file at `key`, and `further` times more if it is not taken
then. Nobody else acts on the host between two tries. -/
def retryLock (key : Key) : (further : Nat) → StateM Host Bool
  | 0 => tryLock key
  | further + 1 => do
    if ← tryLock key then return true
    retryLock key further

/-- Takes the lock of the device whose registers are in the file at `key`, and makes the
device ours. The lock is tried once even where no attempt is allowed. -/
def hold (window : Window Host) (key : Key) (attempts : Nat) : HostAction Unit := do
  if ← retryLock key (attempts - 1) then
    modify fun host => (window.claim host.process host).2
  else
    let host ← get
    modify (·.note (.error "timed out waiting for lock"))
    throw (.deviceBusy (window.read Register.holder host).1)

/-- Finds the device and holds it. What the registers in a file are read and written
through is given. -/
def startThrough (window : Key → Window Host) (settings : Settings) : HostAction OpenDevice := do
  let directory ← Discovery.discover settings
  let key ← Host.onFiles (FileAction.openFile (Path.join directory "resource0"))
  FileWindow.map key
  Discovery.enableMemory (Path.join directory "config")
  hold (window key) key settings.lockAttempts
  return ⟨key, settings.polls⟩

/-- Finds the device and holds it, its registers in their file. -/
def start : Settings → HostAction OpenDevice :=
  startThrough FileWindow.window

/-- Sends a request to the device. -/
def request (device : OpenDevice) (query : Query) : StateM Host Reply := do
  let outcome ← (FileWindow.window device.key).request device.polls query
  modify fun host => outcome.log.foldl Host.note host
  return outcome.reply

/-- Gives the device up and lets go of its lock. -/
def close (device : OpenDevice) : StateM Host Unit := do
  (FileWindow.window device.key).release
  modify fun host => (host.dropMargin device.key).unlock device.key

end OpenDevice

end NicScope
