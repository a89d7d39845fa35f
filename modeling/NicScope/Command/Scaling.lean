/-
The command that shows the receive-side scaling of a function. Every view is
read from a blob of one size, whatever the view needs of it.
-/

import NicScope.Command.Interface
import NicScope.Feature
import NicScope.Tables.Scaling
import NicScope.Transfer.Fetch

namespace NicScope

open Numeral

namespace Scaling

/-- What can be shown. -/
inductive View where
  | algorithm | key | fields | redirections | classes
  deriving DecidableEq, Repr

def features : List (Feature View) :=
  [⟨"algo", 0, false, .algorithm⟩, ⟨"key", 1, false, .key⟩, ⟨"tuple", 2, false, .fields⟩,
    ⟨"reta", 3, false, .redirections⟩, ⟨"tc_mode", 4, false, .classes⟩]

/-- What the options of the command choose. -/
structure Context where
  target : Target
  feature : Option (Feature View)
  deriving DecidableEq, Repr

/-! ### Options -/

def commandName : String := "nic_rss"

/-- Chooses the view. -/
def chooseView (argument : Option String) : OptionAction Context Unit := do
  let feature ← Feature.select features argument "-g/--get param error!!!"
  modify fun context => { context with feature := some feature }

def options (files : FileTree) (systemRoot : String) : List (CommandOption Context) :=
  [.help,
    Interface.option files systemRoot fun target context => { context with target },
    ⟨"-g", "--get", true, chooseView⟩]

def optionHelp : String :=
  Command.helpLine ++ Interface.helpLine "\t" ++
    Dump.lines
      ["      [-g/--get <options>]",
        "          algo    : get hash algorithm.",
        "          key     : get hash key.",
        "          tuple   : get configuration of tuple",
        "          reta    : get reta table.",
        "          tc_mode : get rss tc mode.",
        ""]

/-! ### Views -/

/-- What was read for a view. -/
inductive Tables where
  | algorithm (algorithm : HashAlgorithm)
  | key (key : HashKey)
  | fields (fields : HashedFields)
  | redirections (table : RedirectionTable)
  | classes (classes : List TrafficClass)
  deriving DecidableEq, Repr

namespace Tables

/-- Reads what a view shows. -/
def parse (view : View) (payload : Bytes) : Except DecodeError Tables :=
  match view with
  | .algorithm => .algorithm <$> HashAlgorithm.parse payload
  | .key => .key <$> Record.parse payload
  | .fields => .fields <$> Record.parse payload
  | .redirections => .redirections <$> Record.parse payload
  | .classes => .classes <$> Record.parseMany trafficClasses payload

/-- What is noted of a view whose stated length is more than there can be. -/
def truncation (isTruncated : Bool) : Dump :=
  if isTruncated then [.note (.error "The cmd data is truncated.")] else []

def algorithmText : HashAlgorithm → String
  | .unknown code => "hash_algo=0x" ++ hexadecimal code.toNat ++ "\n"
  | known => "RSS hash algo: " ++ known.render ++ ".\n"

/-- A byte as two digits, letters in upper case. -/
def keyByte (byte : UInt8) : String :=
  String.ofList ((paddedDigits 16 2 byte.toNat).map Char.toUpper)

def keyText (key : HashKey) : String :=
  "key len: " ++ decimal key.length.toNat ++ "\nKEY: " ++ String.join (key.bytes.map keyByte)

/-- The hashed fields of the packet types that have any. -/
def fieldsText (fields : HashedFields) : String :=
  (if fields.isDisabled then "RSS disable" else "") ++
    Dump.lines (PacketType.all.filterMap fun type =>
      (fields.enabled? type).map fun names =>
        type.name ++ " enable field: " ++ " ".intercalate names) ++ "\n"

def redirectionLines (table : RedirectionTable) : List String :=
  table.entries.zipIdx.map fun entry =>
    "RSS RETA configuration: hash index=" ++ decimal entry.2 ++ ", queue=" ++
      decimal entry.1.toNat

def classLines (classes : List TrafficClass) : List String :=
  "tc_num  | tc_valid | tc_offset | tc_size" :: classes.zipIdx.map fun entry =>
    decimal entry.2 ++ "       |     " ++ decimal entry.1.valid.toNat ++ "    |    " ++
      paddedDecimal 4 entry.1.offset.toNat ++ "   |    " ++ decimal entry.1.size.toNat

def view : Tables → Dump
  | .algorithm found => [.text (algorithmText found)]
  | .key found => .text (keyText found) :: truncation found.isTruncated ++ [.text "\n"]
  | .fields found => [.text (fieldsText found)]
  | .redirections found =>
    .text (Dump.lines (redirectionLines found)) :: truncation found.isTruncated
  | .classes found => [.text (Dump.lines (classLines found))]

end Tables

/-! ### Questions -/

/-- The request for a block of a view. -/
def blockRequest (address : PciAddress) (block : UInt8) : ScalingRequest :=
  ⟨address, block, #v[0, 0, 0]⟩

/-- What the view shows. -/
def fetchTables (context : Context) (feature : Feature View) : Exchange Tables := do
  let payload ← Fetch.blob PlainHead commandName (.ofNic .rss feature.subcommand)
    maxScalingBytes (blockRequest context.target.address)
  Fetch.fromExcept ((Tables.parse feature.kind payload).mapError .decode)

/-- The view to show. -/
def choice (context : Context) : Except Error (Feature View) :=
  match context.feature with
  | some feature => .ok feature
  | none => .error (.usage "-g/--get param error!")

/-- An error of the query, named with its number. -/
def queryError (feature : Feature View) (cause : Error) : Error :=
  .failed ("failed to query " ++ feature.name ++ ", ret = " ++ signedDecimal cause.errno ++ ".")
    cause

/-- Asks for the view, and shows it. -/
def execute (context : Context) : Exchange Dump := do
  let feature ← Fetch.fromExcept (choice context)
  let tables ← Fetch.withCause (queryError feature) (fetchTables context feature)
  return Dump.framed ("################### RSS " ++ feature.name ++ " ###################")
    tables.view

end Scaling

/-- Shows the receive-side scaling of a function. -/
def scalingCommand : Command where
  name := Scaling.commandName
  summary := "show rss info of nic!"
  optionHelp := Scaling.optionHelp
  Context := Scaling.Context
  initial := ⟨.unset, none⟩
  options := Scaling.options
  execute := Scaling.execute

end NicScope
