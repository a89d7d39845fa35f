/-
The flow director as it is shown: what the hardware can do and how its stages
build their keys, the rules of a stage with what they match and what they do, or
the counters of a stage. Rules are shown up to the first one that is not set.
-/

import NicScope.Command.Dump
import NicScope.Tables.Director
import NicScope.Text.Column

namespace NicScope

open Numeral

/-- What was read for a view of the flow director. -/
inductive DirectorTables where
  | hardware (resources : DirectorResources)
  /-- The rules of a stage, with the resources that they are read by. -/
  | rules (resources : DirectorResources) (rules : List Rule)
  | counters (counters : List HitCounter)
  deriving DecidableEq, Repr

namespace DirectorTables

/-- The number that a stage is called by. -/
def stageNumber (stage : Fin 2) : String :=
  decimal (stage.val + 1)

/-! ### Hardware -/

def hardwareLines (resources : DirectorResources) : List String :=
  ["fd hardware info:",
    "  fd_mode: " ++ resources.mode.render,
    "  fd_enable=" ++ (if resources.enabled = 0 then "disable" else "enable"),
    "  max key bit width: " ++ decimal resources.keyBits.toNat] ++
    (List.finRange 2).flatMap fun stage =>
      ["  stage" ++ stageNumber stage ++ "_entry_num=" ++
          decimal resources.entries[stage].toNat,
        "  stage" ++ stageNumber stage ++ "_counter_num=" ++
          decimal resources.counters[stage].toNat]

/-- Which words of the addresses are in the key of a stage. -/
def keyHeadLines (stage : Fin 2) (key : StageKey) : List String :=
  let selection := if key.keySelection = .tuple then "tuple" else "packet"
  ["fd stage" ++ stageNumber stage ++ " key info:",
    "  key_select: " ++ selection,
    "  inner_src_ipv6_word_en: 0x" ++ hexadecimal key.innerSource.toNat,
    "  inner_dest_ipv6_word_en: 0x" ++ hexadecimal key.innerDestination.toNat,
    "  outer_src_ipv6_word_en: 0x" ++ hexadecimal key.outerSource.toNat,
    "  outer_dest_ipv6_word_en: 0x" ++ hexadecimal key.outerDestination.toNat]

/-- Which fields are in the key of a stage. -/
def keyFieldLines (key : StageKey) : List String :=
  ("  fd enable key info[mask: 0x" ++ hexadecimal key.tupleMask.toNat ++ "]:") ::
    key.activeTuples.map (fun field => "    " ++ field.name) ++
    ("  fd meta info[mask: 0x" ++ hexadecimal key.metaMask.toNat ++ "]:") ::
    key.activeMeta.map fun field => "    " ++ field.name

/-- The key of a stage, if the stage has entries. The fields of a key that is built
from the packet type are unknown. -/
def stageView (resources : DirectorResources) (stage : Fin 2) : Dump :=
  let key := resources.keys[stage]
  if resources.entries[stage] = 0 then []
  else if key.keySelection = .packetType then
    [.text (Dump.lines (keyHeadLines stage key)),
      .note (.warning "Unsupport for parsing packet type key.")]
  else [.text (Dump.lines (keyHeadLines stage key ++ keyFieldLines key))]

def hardwareView (resources : DirectorResources) : Dump :=
  .text (Dump.lines (hardwareLines resources)) ::
    (List.finRange 2).flatMap (stageView resources)

/-! ### Rules -/

/-- What a rule does, in one line. -/
def actionText (action : Action) : String :=
  let part (isSet : Bool) (text : String) : String := if isSet then text else ""
  part action.drop "\t  Drop/accecpt: Drop" ++
    part action.directQueue ("\t  Direct Queue id: " ++ decimal action.queue.toNat) ++
    part action.counterValid ("\t  Counter id: " ++ decimal action.counter.toNat) ++
    part action.nextValid ("\t  Next input key: " ++ decimal action.nextKey.toNat) ++
    part action.ruleValid ("\t  Rule id: " ++ decimal action.rule.toNat) ++
    part action.regionEnabled
      ("\t  start qid:" ++ decimal action.queue.toNat ++ "    Queue region size: " ++
        decimal ((1 : UInt32) <<< action.regionSize.toUInt32).toNat)

def metaLines (data : MetaData) : List String :=
  ("\t  meta_data[meta_data=0x" ++ hexadecimal data.raw.toNat ++ "]:") ::
    data.fields.map fun field => "\t    " ++ field.render

/-- What a rule that is set matches and does. -/
def ruleLines (mode : TableMode) (key : StageKey) (rule : Rule) : List String :=
  let fields := match rule.metaData? mode key with
    | some data => metaLines data
    | none => []
  "\tKey:" :: (rule.tuples key).map (fun tuple => "\t  " ++ tuple.render) ++ fields ++
    ["", "\tAction[ad data: 0x" ++ hexadecimal rule.actionWord.toNat ++ "]:",
      actionText rule.action]

/-- Rules up to the first one that is not set, which is named. -/
def rulesUntilUnset (mode : TableMode) (key : StageKey) : List Rule → List String
  | [] => []
  | rule :: rest =>
    (" rule_idx: " ++ decimal rule.index.toNat) ::
      if rule.valid = 0 then ["\tDriver doesn't configure the rule with this id!"]
      else ruleLines mode key rule ++ rulesUntilUnset mode key rest

def ruleView (stage : Fin 2) (resources : DirectorResources) (rules : List Rule) :
    List String :=
  ("fd stage" ++ stageNumber stage ++ " rules info[rule_num=" ++ decimal rules.length ++ "]:") ::
    rulesUntilUnset resources.mode resources.keys[stage] rules

/-! ### Counters -/

def counterView (stage : Fin 2) (counters : List HitCounter) : List String :=
  ["fd stage" ++ stageNumber stage ++ " counter info:", " idx | hit_cnt"] ++
    counters.map fun counter =>
      " " ++ Column.right 3 (decimal counter.index.toNat) ++ " | " ++
        decimal counter.value.toNat

/-- The view of a stage, or of the hardware. -/
def view (stage : Fin 2) : DirectorTables → Dump
  | .hardware resources => hardwareView resources
  | .rules resources found => [.text (Dump.lines (ruleView stage resources found))]
  | .counters found => [.text (Dump.lines (counterView stage found))]

end DirectorTables

end NicScope
