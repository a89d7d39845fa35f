/-
The flow director. It looks packets up in a ternary memory, in one or two
stages. A stage builds its lookup key from the tuple fields and, at the end of
the active key, the meta data fields whose bits are clear in its masks. A rule
stores each key bit twice, in two halves x and y: y is the value, and a bit
takes part in the comparison where the halves differ. The action of a rule is
packed into two words.
-/

import NicScope.Tables.Record

namespace NicScope

open Numeral

/-! ### Geometry -/

/-- How the memory is divided into stages, rules and key bits. -/
inductive TableMode where
  | depth2kWidth400Stage1
  | depth1kWidth400Stage2
  | depth4kWidth200Stage1
  | depth2kWidth200Stage2
  | unknown (code : UInt8)
  deriving DecidableEq, Repr

namespace TableMode

def ofCode (code : UInt8) : TableMode :=
  match code.toNat with
  | 0 => depth2kWidth400Stage1
  | 1 => depth1kWidth400Stage2
  | 2 => depth4kWidth200Stage1
  | 3 => depth2kWidth200Stage2
  | _ => unknown code

def code : TableMode → UInt8
  | depth2kWidth400Stage1 => 0
  | depth1kWidth400Stage2 => 1
  | depth4kWidth200Stage1 => 2
  | depth2kWidth200Stage2 => 3
  | unknown code => code

def render : TableMode → String
  | depth2kWidth400Stage1 => "one level mode, 2k * 400b"
  | depth1kWidth400Stage2 => "two level mode, 1k * 400b per level"
  | depth4kWidth200Stage1 => "one level mode, 4k * 200b"
  | depth2kWidth200Stage2 => "two level mode, 2k * 200 per level"
  | unknown _ => "unknown mode"

/-- The active key bits of a known mode. -/
def keyBits? : TableMode → Option UInt16
  | depth2kWidth400Stage1 => some 400
  | depth1kWidth400Stage2 => some 400
  | depth4kWidth200Stage1 => some 200
  | depth2kWidth200Stage2 => some 200
  | unknown _ => none

end TableMode

/-- What a stage builds its key from. -/
inductive KeySelection where
  | packetType
  | tuple
  | other (code : UInt8)
  deriving DecidableEq, Repr

def KeySelection.ofCode (code : UInt8) : KeySelection :=
  if code = 0 then packetType else if code = 1 then tuple else other code

/-! ### Key fields -/

/-- How the value of a tuple field is written. -/
inductive TupleKind where
  | mac | etherType | u16 | u8 | ipv4 | u32 | vni
  deriving DecidableEq, Repr

/-- A field that may take part in a key. -/
structure KeyField where
  name : String
  bits : UInt8
  kind : TupleKind
  deriving DecidableEq, Repr

namespace KeyField

/-- The whole bytes that the field takes in a key. -/
def bytes (field : KeyField) : Nat :=
  (field.bits.toNat + 7) / 8

end KeyField

/-- The tuple fields; the position of a field is its bit in a tuple mask. -/
def tupleFields : List KeyField :=
  [⟨"ot_dmac", 48, .mac⟩, ⟨"ot_smac", 48, .mac⟩, ⟨"ot_vlan_tag_fst", 16, .u16⟩,
    ⟨"ot_vlan_tag_sec", 16, .u16⟩, ⟨"ot_eth_type", 16, .etherType⟩, ⟨"ot_l2_rsv", 16, .u16⟩,
    ⟨"ot_ip_tos", 8, .u8⟩, ⟨"ot_ip_proto", 8, .u8⟩, ⟨"ot_sip", 32, .ipv4⟩,
    ⟨"ot_dip", 32, .ipv4⟩, ⟨"ot_l3_rsv", 16, .u16⟩, ⟨"ot_sp", 16, .u16⟩, ⟨"ot_dp", 16, .u16⟩,
    ⟨"ot_l4_rsv", 32, .u32⟩, ⟨"ot_tun_vni", 24, .vni⟩, ⟨"ot_tun_flow_id", 8, .u8⟩,
    ⟨"in_dmac", 48, .mac⟩, ⟨"in_smac", 48, .mac⟩, ⟨"in_vlan_tag_fst", 16, .u16⟩,
    ⟨"in_vlan_tag_sec", 16, .u16⟩, ⟨"in_eth_type", 16, .etherType⟩, ⟨"in_l2_rsv", 16, .u16⟩,
    ⟨"in_ip_tos", 8, .u8⟩, ⟨"in_ip_proto", 8, .u8⟩, ⟨"in_sip", 32, .ipv4⟩,
    ⟨"in_dip", 32, .ipv4⟩, ⟨"in_l3_rsv", 16, .u16⟩, ⟨"in_sp", 16, .u16⟩, ⟨"in_dp", 16, .u16⟩,
    ⟨"in_l4_rsv", 32, .u32⟩]

/-- The names and widths of the meta data fields, in the order of their bits in
a meta data mask. -/
def metaFields : List (String × UInt8) :=
  [("packet_type_id", 6), ("fragement", 1), ("roce_type", 1), ("next_key", 5), ("vlan_num", 2),
    ("src_port", 12), ("des_port", 12), ("tunnel_packet", 1)]

/-- A meta data field that is in a key, with its position in `metaFields`. -/
structure ActiveMeta where
  index : Nat
  name : String
  bits : UInt8
  deriving DecidableEq, Repr

/-! ### Stages -/

/-- How one stage builds its key. -/
structure StageKey where
  stage : UInt8
  selection : UInt8
  innerSource : UInt8
  innerDestination : UInt8
  outerSource : UInt8
  outerDestination : UInt8
  /-- A clear bit marks an active tuple field. -/
  tupleMask : UInt32
  /-- A clear bit marks an active meta data field. -/
  metaMask : UInt32
  deriving DecidableEq, Repr

namespace StageKey

def keySelection (key : StageKey) : KeySelection :=
  .ofCode key.selection

/-- The tuple fields in the key, in the order they have there. -/
def activeTuples (key : StageKey) : List KeyField :=
  (tupleFields.zipIdx.filter fun entry => !Bits.flag key.tupleMask entry.2).map Prod.fst

/-- The meta data fields in the key, in the order of their positions. -/
def activeMeta (key : StageKey) : List ActiveMeta :=
  (metaFields.zipIdx.filter fun entry => !Bits.flag key.metaMask entry.2).map fun entry =>
    ⟨entry.2, entry.1.1, entry.1.2⟩

/-- The bits of all active meta data fields together. -/
def metaBits (key : StageKey) : Nat :=
  key.activeMeta.foldr (fun field bits => field.bits.toNat + bits) 0

end StageKey

instance : Record StageKey where
  size := 16
  parse := Reading.parse do
    let head ← Cursor.array 6
    Cursor.skip 2
    let tupleMask ← Cursor.word
    let metaMask ← Cursor.word
    return ⟨head[0], head[1], head[2], head[3], head[4], head[5], tupleMask, metaMask⟩

/-- The flow director of a port. -/
structure DirectorResources where
  mode : TableMode
  enabled : UInt8
  /-- The widest key of the hardware, whatever its mode. -/
  keyBits : UInt16
  entries : Vector UInt32 2
  counters : Vector UInt16 2
  keys : Vector StageKey 2
  deriving DecidableEq, Repr

namespace DirectorResources

/-- The bytes of one key half, in whole words. -/
def keyBytes (resources : DirectorResources) : UInt16 :=
  (resources.keyBits / 8 + 3) / 4 * 4

/-- The bytes of one rule, with its two key halves. -/
def ruleSize (resources : DirectorResources) : Nat :=
  16 + 2 * resources.keyBytes.toNat

end DirectorResources

instance : Record DirectorResources where
  size := 48
  parse := Reading.parse do
    let mode := TableMode.ofCode (← Cursor.byte)
    let enabled ← Cursor.byte
    let keyBits ← Cursor.half
    let entries := #v[← Cursor.word, ← Cursor.word]
    let counters := #v[← Cursor.half, ← Cursor.half]
    let first ← Reading.ofExcept (Record.parse (← Cursor.bytes (Record.size StageKey)))
    let second ← Reading.ofExcept (Record.parse (← Cursor.bytes (Record.size StageKey)))
    return ⟨mode, enabled, keyBits, entries, counters, #v[first, second]⟩

/-! ### Tuples -/

/-- A tuple field of a rule: the bits that are compared, and their values. -/
structure Tuple where
  name : String
  mask : UInt64
  kind : TupleKind
  value : UInt64
  deriving DecidableEq, Repr

namespace Tuple

/-- Reads a field at `offset` from both key halves; `none` if it lies beyond
their end or if none of its bits is compared. -/
def read? (field : KeyField) (keyX keyY : Bytes) (offset : Nat) : Option Tuple :=
  if keyX.length < offset + field.bytes || keyY.length < offset + field.bytes then none
  else
    let x := (keyX.drop offset).take field.bytes
    let y := (keyY.drop offset).take field.bytes
    let mask := UInt64.ofNat (Bytes.toNat (List.zipWith (· ^^^ ·) x y))
    if mask = 0 then none
    else some ⟨field.name, mask, field.kind, UInt64.ofNat (Bytes.toNat y)⟩

/-- The value as the kind of its field has it. -/
def renderValue (kind : TupleKind) (value : UInt64) : String :=
  match kind with
  | .mac =>
    MacAddress.render ⟨Vector.ofFn fun index : Fin 6 =>
      (Bytes.ofNat 8 value.toNat).getD (5 - index) 0⟩
  | .etherType => "0x" ++ hexadecimal value.toUInt16.toNat
  | .u16 => decimal value.toUInt16.toNat
  | .u8 => "0x" ++ hexadecimal value.toUInt8.toNat
  | .ipv4 =>
    ".".intercalate ((Bytes.ofNat 4 value.toNat).reverse.map fun byte => decimal byte.toNat)
  | .u32 => decimal value.toUInt32.toNat
  | .vni => "0x" ++ hexadecimal (value &&& 0xffffff).toNat

def render (tuple : Tuple) : String :=
  tuple.name ++ "[mask=0x" ++ hexadecimal tuple.mask.toNat ++ "]: " ++
    renderValue tuple.kind tuple.value

end Tuple

/-! ### Meta data -/

/-- The value of a meta data field of a rule. -/
structure MetaField where
  index : Nat
  name : String
  value : UInt32
  deriving DecidableEq, Repr

namespace MetaField

def renderValue (index : Nat) (value : UInt32) : String :=
  match index with
  | 0 => decimal value.toNat
  | 1 => if value = 0 then "NON-IP frag packet" else "IP frag packet"
  | 2 => if value = 0 then "NIC packet" else "RoCE packet"
  | 3 => decimal value.toNat
  | 4 => ["no tag", "tag2 only", "tag1 only", "tag1+tag2"].getD (value.toNat % 4) ""
  | 5 => "0x" ++ hexadecimal value.toNat
  | 6 => "0x" ++ hexadecimal value.toNat
  | 7 => if value = 0 then "non-tunnel packet" else "tunnel packet"
  | other => "unknown meta type(" ++ decimal other ++ ")"

def render (field : MetaField) : String :=
  field.name ++ ": " ++ renderValue field.index field.value

end MetaField

/-- The meta data of a rule: the bytes that hold it, as a number, and its
fields, the one of the highest position first. -/
structure MetaData where
  raw : UInt64
  fields : List MetaField
  deriving DecidableEq, Repr

namespace MetaData

/-- Takes `fields` off the bits below `top`, each from just under the one before;
`none` if the bits run out. -/
def unpack? (raw : UInt64) : Nat → List ActiveMeta → Option (List MetaField)
  | _, [] => some []
  | top, field :: rest =>
    if top < field.bits.toNat then none
    else
      let low := top - field.bits.toNat
      let mask := Bits.mask (UInt32.ofNat (top - 1)) (UInt32.ofNat low)
      let value := (Bits.field raw mask (UInt32.ofNat low)).toUInt32
      match unpack? raw low rest with
      | some others => some (⟨field.index, field.name, value⟩ :: others)
      | none => none

end MetaData

/-! ### Actions -/

/-- What happens to a packet that a rule matches. -/
structure Action where
  drop : Bool := false
  directQueue : Bool := false
  queue : UInt16 := 0
  counterValid : Bool := false
  counter : UInt16 := 0
  nextValid : Bool := false
  nextKey : UInt16 := 0
  ruleValid : Bool := false
  rule : UInt16 := 0
  regionEnabled : Bool := false
  regionSize : UInt16 := 0
  deriving DecidableEq, Repr

namespace Action

/-- Bits `high` down to `low` of a word. -/
def bits (word : UInt32) (high low : UInt32) : UInt16 :=
  (Bits.field word.toUInt64 (Bits.mask high low) low).toUInt16

/-- Bit `position` of a word, moved to bit `target`. -/
def splitBit (word : UInt32) (position : Nat) (target : UInt16) : UInt16 :=
  (if Bits.flag word position then 1 else 0) <<< target

/-- Takes an action apart. A number that its switch turns off is zero; queue and
counter have their highest bit in the high word. -/
def ofWords (low high : UInt32) : Action :=
  let direct := Bits.flag low 1
  let counterValid := Bits.flag low 12
  let nextValid := Bits.flag low 20
  let ruleValid := Bits.flag high 0
  let region := Bits.flag high 16
  { drop := Bits.flag low 0
    directQueue := direct
    queue := if direct || region then splitBit high 21 10 ||| bits low 11 2 else 0
    counterValid := counterValid
    counter := if counterValid then splitBit high 26 7 ||| bits low 19 13 else 0
    nextValid := nextValid
    nextKey := if nextValid then bits low 25 21 else 0
    ruleValid := ruleValid
    rule := if ruleValid then bits high 12 1 else 0
    regionEnabled := region
    regionSize := if region then bits high 20 17 else 0 }

end Action

/-! ### Rules -/

structure Rule where
  index : UInt32
  valid : UInt8
  actionLow : UInt32
  actionHigh : UInt32
  keyX : Bytes
  keyY : Bytes
  deriving DecidableEq, Repr

namespace Rule

/-- The bytes of a rule in front of its keys. -/
def headSize : Nat := 16

/-- Parses a rule whose key halves have `keyBytes` bytes each. -/
def parse (keyBytes : Nat) : Bytes → Except DecodeError Rule :=
  Reading.parse do
    let index ← Cursor.word
    let valid ← Cursor.byte
    Cursor.skip 3
    let actionLow ← Cursor.word
    let actionHigh ← Cursor.word
    let keyX ← Cursor.bytes keyBytes
    let keyY ← Cursor.bytes keyBytes
    return ⟨index, valid, actionLow, actionHigh, keyX, keyY⟩

/-- Parses `count` consecutive rules. -/
def parseMany (keyBytes count : Nat) (payload : Bytes) : Except DecodeError (List Rule) :=
  Record.parseRun (headSize + 2 * keyBytes) (parse keyBytes) count payload

/-- Both action words as one number. -/
def actionWord (rule : Rule) : UInt64 :=
  (rule.actionHigh.toUInt64 <<< 32) ||| rule.actionLow.toUInt64

def action (rule : Rule) : Action :=
  .ofWords rule.actionLow rule.actionHigh

/-- The tuples of `fields`, the first of which is at `offset`. -/
def tuplesFrom (keyX keyY : Bytes) : Nat → List KeyField → List Tuple
  | _, [] => []
  | offset, field :: rest =>
    (Tuple.read? field keyX keyY offset).toList ++
      tuplesFrom keyX keyY (offset + field.bits.toNat / 8) rest

/-- The tuples that the rule compares, in the order of the key. -/
def tuples (rule : Rule) (key : StageKey) : List Tuple :=
  tuplesFrom rule.keyX rule.keyY 0 key.activeTuples

/-- The meta data at the end of the active key; `none` where the mode is unknown
or the fields do not fit. -/
def metaData? (rule : Rule) (mode : TableMode) (key : StageKey) : Option MetaData := do
  let activeBytes := (← mode.keyBits?).toNat / 8
  let metaBytes := (key.metaBits + 7) / 8
  if metaBytes > 8 || metaBytes > activeBytes || rule.keyY.length < activeBytes then failure
  let bytes := (rule.keyY.drop (activeBytes - metaBytes)).take metaBytes
  let raw := UInt64.ofNat (Bytes.toNat bytes)
  return ⟨raw, ← MetaData.unpack? raw (metaBytes * 8) key.activeMeta.reverse⟩

end Rule

/-! ### Counters -/

/-- How often a counter was hit. -/
structure HitCounter where
  index : UInt16
  value : UInt64
  deriving DecidableEq, Repr

instance : Record HitCounter where
  size := 16
  parse := Reading.parse do
    let index ← Cursor.half
    Cursor.skip 6
    let value ← Cursor.long
    return ⟨index, value⟩

end NicScope
