/-
This file proves that no view has the sign in its text that the first and the last line of a dump
are drawn with, whatever the tables hold that are shown. Numbers have it in no place, and the names
that stand in the texts are fixed. A view is taken apart down to its fixed texts, and each of them
is decided as a list of characters: that a text is such a list is seen at once, while finding its
characters from its bytes takes long.
-/

import NicScope.Proofs.Text.Unmarked
import NicScope.Tool

namespace NicScope

open Numeral

/-! ### Parts of lines -/

@[simp]
theorem MacAddress.unmarked_render (address : MacAddress) : Unmarked address.render :=
  unmarked_intercalate (by decide) (by simp)

@[simp]
theorem FunctionBitmap.unmarked_render (bitmap : FunctionBitmap) : Unmarked bitmap.render :=
  unmarked_intercalate (by decide) (allUnmarked_map.mpr fun _ _ => by simp)

@[simp]
theorem unmarked_functionName (function : UInt16) : Unmarked (functionName function) := by
  rw [functionName]
  split
  · decide
  · exact unmarked_append.mpr ⟨by decide, unmarked_decimal _⟩

/-! ### Packet filter tables -/

namespace PortTables

@[simp]
theorem unmarked_unicastColumns : Unmarked unicastColumns :=
  unmarked_append.mpr ⟨unmarked_ofList (by decide), unmarked_ofList (by decide)⟩

@[simp]
theorem unmarked_unicastRow (entry : UnicastEntry) : Unmarked (unicastRow entry) := by
  unfold unicastRow
  simp
  and_intros <;> exact unmarked_ofList (by decide)

@[simp]
theorem unmarked_multicastRow (entry : MulticastEntry) : Unmarked (multicastRow entry) := by
  unfold multicastRow
  simp
  and_intros <;> exact unmarked_ofList (by decide)

@[simp]
theorem allUnmarked_addressRows (unicast : List UnicastEntry) (unicastCount : Nat)
    (multicast : List MulticastEntry) (multicastCount : Nat) :
    AllUnmarked (addressRows unicast unicastCount multicast multicastCount) := by
  simp [addressRows]
  and_intros <;> exact unmarked_ofList (by decide)

theorem allUnmarked_allAddresses (resources : PortResources) (unicast : List UnicastEntry)
    (multicast : List MulticastEntry) : AllUnmarked (allAddresses resources unicast multicast) := by
  rw [allAddresses]
  split
  · simp
    and_intros <;> exact unmarked_ofList (by decide)
  · simp
    and_intros <;> exact unmarked_ofList (by decide)

theorem allUnmarked_functionAddresses (resources : PortResources) (physical : UInt8)
    (function : UInt16) (isUnicast : Bool) (unicast : List UnicastEntry)
    (multicast : List MulticastEntry) :
    AllUnmarked
      (functionAddresses resources physical function isUnicast unicast multicast) := by
  cases isUnicast with
  | true =>
    simp [functionAddresses]
    and_intros <;> intros <;> exact unmarked_ofList (by decide)
  | false =>
    simp [functionAddresses]
    and_intros <;> intros <;> exact unmarked_ofList (by decide)

@[simp]
theorem unmarked_vlanBlock (ids : List UInt16) : Unmarked (vlanBlock ids) := by
  rw [vlanBlock, unmarked_join, allUnmarked_map]
  intro entry _
  split
  · simp
    and_intros <;> exact unmarked_ofList (by decide)
  · simp
    exact unmarked_ofList (by decide)

theorem allUnmarked_allVlans (resources : PortResources) (functions : List FunctionVlanEntry)
    (ports : List PortVlanEntry) : AllUnmarked (allVlans resources functions ports) := by
  simp [allVlans]
  and_intros <;> intros <;> and_intros <;> exact unmarked_ofList (by decide)

theorem allUnmarked_portVlans (resources : PortResources) (ports : List PortVlanEntry) :
    AllUnmarked (portVlans resources ports) := by
  simp [portVlans]
  and_intros <;> exact unmarked_ofList (by decide)

theorem allUnmarked_functionVlans (resources : PortResources) (physical : UInt8)
    (function : UInt16) (functions : List FunctionVlanEntry) :
    AllUnmarked (functionVlans resources physical function functions) := by
  simp [functionVlans]
  and_intros <;> exact unmarked_ofList (by decide)

@[simp]
theorem unmarked_managerRow (entry : ManagerEntry) : Unmarked (managerRow entry) := by
  unfold managerRow
  simp
  and_intros <;> exact unmarked_ofList (by decide)

theorem allUnmarked_managerTable (resources : PortResources) (entries : List ManagerEntry) :
    AllUnmarked (managerTable resources entries) := by
  simp [managerTable, -String.reduceAppend]
  and_intros <;> exact unmarked_ofList (by decide)

theorem allUnmarked_promiscuityTable (table : PromiscuityTable) :
    AllUnmarked (promiscuityTable table) := by
  rw [promiscuityTable, allUnmarked_cons, allUnmarked_map]
  exact ⟨by decide, fun _ _ => unmarked_intercalate (by decide) (by simp)⟩

@[simp]
theorem unmarked_onOff (enabled : Bool) : Unmarked (onOff enabled) := by
  cases enabled with
  | true => decide
  | false => decide

@[simp]
theorem unmarked_bypassText (bypass : UInt8) : Unmarked (bypassText bypass) := by
  rw [bypassText]
  split
  · decide
  · split
    · decide
    · decide

@[simp]
theorem unmarked_switchNames : Unmarked ("\t".intercalate VlanOffload.switchNames) :=
  unmarked_intercalate (by decide) (by
    simp [VlanOffload.switchNames]
    and_intros <;> exact unmarked_ofList (by decide))

@[simp]
theorem unmarked_switches (offload : VlanOffload) :
    Unmarked ("\t\t".intercalate (offload.switches.map fun switch => onOff (switch.2 != 0))) :=
  unmarked_intercalate (by decide) (by simp)

theorem allUnmarked_vlanOffloadTable (table : VlanOffloadTable) :
    AllUnmarked (vlanOffloadTable table) := by
  simp [vlanOffloadTable]
  and_intros <;> intros <;> and_intros <;> exact unmarked_ofList (by decide)

/-- No line of a view has a number sign. -/
theorem allUnmarked_view (resources : PortResources) (physical : UInt8)
    (function : Option UInt16) (isUnicast : Bool) (tables : PortTables) :
    AllUnmarked (tables.view resources physical function isUnicast) := by
  cases tables with
  | addresses unicast multicast =>
    cases function with
    | some function => exact allUnmarked_functionAddresses _ _ _ _ _ _
    | none => exact allUnmarked_allAddresses _ _ _
  | vlans functions ports =>
    cases function with
    | some function =>
      rw [view]
      split
      · exact allUnmarked_portVlans _ _
      · exact allUnmarked_functionVlans _ _ _ _
    | none => exact allUnmarked_allVlans _ _ _
  | managers entries => exact allUnmarked_managerTable _ _
  | promiscuity table => exact allUnmarked_promiscuityTable _
  | vlanOffload table => exact allUnmarked_vlanOffloadTable _

end PortTables

/-! ### Flow director -/

/-- The names of the tuple fields in a key are among those of all tuple fields. -/
theorem StageKey.unmarked_activeTuples (key : StageKey) :
    ∀ field ∈ key.activeTuples, Unmarked field.name := by
  have names : ∀ field ∈ tupleFields, Unmarked field.name := by
    simp [tupleFields]
    and_intros <;> exact unmarked_ofList (by decide)
  intro field active
  obtain ⟨entry, kept, rfl⟩ := List.mem_map.mp active
  exact names _ (List.fst_mem_of_mem_zipIdx (List.mem_filter.mp kept).1)

/-- The names of the meta data fields in a key are among those of all meta data fields. -/
theorem StageKey.unmarked_activeMeta (key : StageKey) :
    ∀ field ∈ key.activeMeta, Unmarked field.name := by
  have names : ∀ field ∈ metaFields, Unmarked field.1 := by
    simp [metaFields]
    and_intros <;> exact unmarked_ofList (by decide)
  intro field active
  obtain ⟨entry, kept, rfl⟩ := List.mem_map.mp active
  exact names _ (List.fst_mem_of_mem_zipIdx (List.mem_filter.mp kept).1)

theorem Tuple.unmarked_renderValue (kind : TupleKind) (value : UInt64) :
    Unmarked (renderValue kind value) := by
  cases kind with
  | mac => exact MacAddress.unmarked_render _
  | etherType => exact unmarked_append.mpr ⟨by decide, unmarked_hexadecimal _⟩
  | u16 => exact unmarked_decimal _
  | u8 => exact unmarked_append.mpr ⟨by decide, unmarked_hexadecimal _⟩
  | ipv4 => exact unmarked_intercalate (by decide) (allUnmarked_map.mpr fun _ _ => by simp)
  | u32 => exact unmarked_decimal _
  | vni => exact unmarked_append.mpr ⟨by decide, unmarked_hexadecimal _⟩

theorem Tuple.unmarked_render {tuple : Tuple} (name : Unmarked tuple.name) :
    Unmarked tuple.render := by
  simp [render, name, unmarked_renderValue]
  and_intros <;> exact unmarked_ofList (by decide)

/-- A tuple has the name of the field that it is read by. -/
theorem Rule.exists_of_mem_tuplesFrom {keyX keyY : Bytes} {offset : Nat} {fields : List KeyField}
    {tuple : Tuple} (read : tuple ∈ tuplesFrom keyX keyY offset fields) :
    ∃ field ∈ fields, tuple.name = field.name := by
  induction fields generalizing offset with
  | nil => cases read
  | cons field rest inductionHypothesis =>
    rcases List.mem_append.mp read with here | there
    · refine ⟨field, List.mem_cons_self, ?_⟩
      have named : Tuple.read? field keyX keyY offset = some tuple := Option.mem_toList.mp here
      rw [Tuple.read?] at named
      split at named
      next => cases named
      next =>
        dsimp only at named
        split at named
        next => cases named
        next =>
          cases named
          rfl
    · obtain ⟨other, member, same⟩ := inductionHypothesis there
      exact ⟨other, List.mem_cons_of_mem _ member, same⟩

theorem Rule.unmarked_tuples (rule : Rule) (key : StageKey) :
    ∀ tuple ∈ rule.tuples key, Unmarked tuple.render := by
  intro tuple read
  obtain ⟨field, active, same⟩ := exists_of_mem_tuplesFrom read
  exact Tuple.unmarked_render (same ▸ key.unmarked_activeTuples field active)

theorem MetaField.unmarked_renderValue (index : Nat) (value : UInt32) :
    Unmarked (renderValue index value) := by
  unfold renderValue
  split
  · exact unmarked_decimal _
  · split <;> exact unmarked_ofList (by decide)
  · split <;> exact unmarked_ofList (by decide)
  · exact unmarked_decimal _
  · have tags : AllUnmarked ["no tag", "tag2 only", "tag1 only", "tag1+tag2"] := by
      simp
      and_intros <;> exact unmarked_ofList (by decide)
    exact tags.getD (by decide) _
  · exact unmarked_append.mpr ⟨by decide, unmarked_hexadecimal _⟩
  · exact unmarked_append.mpr ⟨by decide, unmarked_hexadecimal _⟩
  · split <;> exact unmarked_ofList (by decide)
  · simp
    and_intros <;> exact unmarked_ofList (by decide)

theorem MetaField.unmarked_render {field : MetaField} (name : Unmarked field.name) :
    Unmarked field.render := by
  have colon : Unmarked ": " := by decide
  exact unmarked_append.mpr ⟨unmarked_append.mpr ⟨name, colon⟩, unmarked_renderValue _ _⟩

/-- The values of meta data have the names of the fields that they are read by. -/
theorem MetaData.unmarked_unpack {raw : UInt64} {top : Nat} {fields : List ActiveMeta}
    (names : ∀ field ∈ fields, Unmarked field.name) {found : List MetaField}
    (unpacked : unpack? raw top fields = some found) : ∀ field ∈ found, Unmarked field.name := by
  induction fields generalizing top found with
  | nil =>
    cases unpacked
    exact List.forall_mem_nil _
  | cons first rest inductionHypothesis =>
    obtain ⟨here, there⟩ := List.forall_mem_cons.mp names
    rw [unpack?] at unpacked
    split at unpacked
    next => cases unpacked
    next =>
      dsimp only at unpacked
      split at unpacked
      next others rest =>
        cases unpacked
        exact List.forall_mem_cons.mpr ⟨here, inductionHypothesis there rest⟩
      next => cases unpacked

theorem Rule.unmarked_metaData {rule : Rule} {mode : TableMode} {key : StageKey} {data : MetaData}
    (read : rule.metaData? mode key = some data) :
    ∀ field ∈ data.fields, Unmarked field.render := by
  obtain ⟨active, _, read⟩ := Option.bind_eq_some_iff.mp read
  dsimp only at read
  split at read
  next => cases read
  next =>
    obtain ⟨fields, unpacked, read⟩ := Option.bind_eq_some_iff.mp read
    cases read
    have names : ∀ field ∈ key.activeMeta.reverse, Unmarked field.name := fun field member =>
      key.unmarked_activeMeta field (List.mem_reverse.mp member)
    exact fun field member =>
      MetaField.unmarked_render (MetaData.unmarked_unpack names unpacked field member)

namespace DirectorTables

@[simp]
theorem unmarked_stageNumber (stage : Fin 2) : Unmarked (stageNumber stage) :=
  unmarked_decimal _

theorem TableMode.unmarked_render (mode : TableMode) : Unmarked mode.render := by
  cases mode <;> exact unmarked_ofList (by decide)

theorem allUnmarked_hardwareLines (resources : DirectorResources) :
    AllUnmarked (hardwareLines resources) := by
  have enabled : Unmarked (if resources.enabled = 0 then "disable" else "enable") := by
    split <;> exact unmarked_ofList (by decide)
  simp [hardwareLines, enabled, TableMode.unmarked_render]
  and_intros <;> exact unmarked_ofList (by decide)

theorem allUnmarked_keyHeadLines (stage : Fin 2) (key : StageKey) :
    AllUnmarked (keyHeadLines stage key) := by
  have selection : Unmarked (if key.keySelection = .tuple then "tuple" else "packet") := by
    split <;> exact unmarked_ofList (by decide)
  simp [keyHeadLines, selection]
  and_intros <;> exact unmarked_ofList (by decide)

theorem allUnmarked_keyFieldLines (key : StageKey) : AllUnmarked (keyFieldLines key) := by
  have indented (name : String) (clear : Unmarked name) : Unmarked ("    " ++ name) :=
    unmarked_append.mpr ⟨by decide, clear⟩
  have tuples : ∀ field ∈ key.activeTuples, Unmarked ("    " ++ field.name) := fun field active =>
    indented _ (key.unmarked_activeTuples field active)
  have others : ∀ field ∈ key.activeMeta, Unmarked ("    " ++ field.name) := fun field active =>
    indented _ (key.unmarked_activeMeta field active)
  rw [keyFieldLines, allUnmarked_append, allUnmarked_cons, allUnmarked_cons, allUnmarked_map,
    allUnmarked_map]
  refine ⟨⟨?_, tuples⟩, ?_, others⟩
  · simp
    and_intros <;> exact unmarked_ofList (by decide)
  · simp
    and_intros <;> exact unmarked_ofList (by decide)

theorem unmarked_stageView (resources : DirectorResources) (stage : Fin 2) :
    ∀ text, .text text ∈ stageView resources stage → Unmarked text := by
  have head := allUnmarked_keyHeadLines stage resources.keys[stage]
  rw [stageView]
  split
  · exact fun _ absent => by cases absent
  · split
    · intro text member
      rcases List.mem_cons.mp member with same | other
      · cases same
        exact unmarked_lines.mpr head
      · cases List.mem_singleton.mp other
    · intro text member
      cases List.mem_singleton.mp member
      exact unmarked_lines.mpr (allUnmarked_append.mpr ⟨head, allUnmarked_keyFieldLines _⟩)

theorem unmarked_hardwareView (resources : DirectorResources) :
    ∀ text, .text text ∈ hardwareView resources → Unmarked text := by
  intro text member
  rcases List.mem_cons.mp member with same | there
  · cases same
    exact unmarked_lines.mpr (allUnmarked_hardwareLines resources)
  · obtain ⟨stage, _, member⟩ := List.mem_flatMap.mp there
    exact unmarked_stageView resources stage text member

theorem unmarked_actionText (action : Action) : Unmarked (actionText action) := by
  have part {text : String} (clear : Unmarked text) (isSet : Bool) :
      Unmarked (if isSet then text else "") := by
    cases isSet with
    | true => exact clear
    | false => exact List.not_mem_nil
  rw [actionText]
  simp only [unmarked_append]
  refine ⟨⟨⟨⟨⟨part ?drop _, part ?queue _⟩, part ?counter _⟩, part ?next _⟩, part ?rule _⟩,
    part ?region _⟩
  case drop => exact unmarked_ofList (by decide)
  case region =>
    simp
    and_intros <;> exact unmarked_ofList (by decide)
  all_goals exact unmarked_append.mpr ⟨unmarked_ofList (by decide), unmarked_decimal _⟩

theorem allUnmarked_metaLines {data : MetaData}
    (fields : ∀ field ∈ data.fields, Unmarked field.render) : AllUnmarked (metaLines data) := by
  rw [metaLines, allUnmarked_cons, allUnmarked_map]
  refine ⟨?_, fun field member => unmarked_append.mpr ⟨by decide, fields field member⟩⟩
  simp
  and_intros <;> exact unmarked_ofList (by decide)

theorem allUnmarked_ruleLines (mode : TableMode) (key : StageKey) (rule : Rule) :
    AllUnmarked (ruleLines mode key rule) := by
  have tuples : ∀ tuple ∈ rule.tuples key, Unmarked ("\t  " ++ tuple.render) :=
    fun tuple read => unmarked_append.mpr ⟨by decide, rule.unmarked_tuples key tuple read⟩
  rw [ruleLines, allUnmarked_append, allUnmarked_append, allUnmarked_cons, allUnmarked_map]
  refine ⟨⟨⟨by decide, tuples⟩, ?_⟩, ?_⟩
  · split
    next data read => exact allUnmarked_metaLines (Rule.unmarked_metaData read)
    next => exact allUnmarked_nil
  · simp [unmarked_actionText]
    and_intros <;> exact unmarked_ofList (by decide)

theorem allUnmarked_rulesUntilUnset (mode : TableMode) (key : StageKey) (rules : List Rule) :
    AllUnmarked (rulesUntilUnset mode key rules) := by
  induction rules with
  | nil => exact allUnmarked_nil
  | cons rule rest inductionHypothesis =>
    rw [rulesUntilUnset, allUnmarked_cons]
    refine ⟨unmarked_append.mpr ⟨by decide, unmarked_decimal _⟩, ?_⟩
    split
    · exact allUnmarked_cons.mpr ⟨unmarked_ofList (by decide), allUnmarked_nil⟩
    · exact allUnmarked_append.mpr ⟨allUnmarked_ruleLines mode key rule, inductionHypothesis⟩

theorem allUnmarked_ruleView (stage : Fin 2) (resources : DirectorResources) (rules : List Rule) :
    AllUnmarked (ruleView stage resources rules) := by
  rw [ruleView, allUnmarked_cons]
  refine ⟨?_, allUnmarked_rulesUntilUnset _ _ _⟩
  simp
  and_intros <;> exact unmarked_ofList (by decide)

theorem allUnmarked_counterView (stage : Fin 2) (counters : List HitCounter) :
    AllUnmarked (counterView stage counters) := by
  simp [counterView]
  and_intros <;> intros <;> and_intros <;> exact unmarked_ofList (by decide)

/-- No text of a view has a number sign. -/
theorem unmarked_view (stage : Fin 2) (tables : DirectorTables) :
    Unmarked (tables.view stage).text := by
  cases tables with
  | hardware resources => exact unmarked_text (unmarked_hardwareView resources)
  | rules resources found =>
    refine unmarked_text fun text member => ?_
    cases List.mem_singleton.mp member
    exact unmarked_lines.mpr (allUnmarked_ruleView stage resources found)
  | counters found =>
    refine unmarked_text fun text member => ?_
    cases List.mem_singleton.mp member
    exact unmarked_lines.mpr (allUnmarked_counterView stage found)

end DirectorTables

/-! ### Receive-side scaling -/

theorem toUpper_ne {character : Char} (other : character ≠ '#') : character.toUpper ≠ '#' := by
  unfold Char.toUpper
  split
  next lower =>
    intro same
    have value : (character.val + ('A'.val - 'a'.val)).toNat = 35 :=
      congrArg (fun character => character.val.toNat) same
    have least : 97 ≤ character.val.toNat := lower.1
    have most : character.val.toNat ≤ 122 := lower.2
    have shift : ('A'.val - 'a'.val).toNat = 4294967264 := by decide
    rw [UInt32.toNat_add] at value
    omega
  next => exact other

namespace Scaling.Tables

theorem unmarked_algorithmText (algorithm : HashAlgorithm) :
    Unmarked (algorithmText algorithm) := by
  have name : Unmarked algorithm.render := by
    cases algorithm <;> exact unmarked_ofList (by decide)
  unfold algorithmText
  split
  · simp
    and_intros <;> exact unmarked_ofList (by decide)
  · simp [name]
    and_intros <;> exact unmarked_ofList (by decide)

theorem unmarked_keyByte (byte : UInt8) : Unmarked (keyByte byte) := by
  refine unmarked_ofList fun member => ?_
  obtain ⟨digit, written, same⟩ := List.mem_map.mp member
  refine toUpper_ne ?_ same
  rintro rfl
  exact not_mem_paddedDigits (by decide) 16 2 byte.toNat written

theorem unmarked_keyText (key : HashKey) : Unmarked (keyText key) := by
  simp [keyText, unmarked_keyByte]
  and_intros <;> exact unmarked_ofList (by decide)

theorem unmarked_enabled {fields : HashedFields} {type : PacketType} {names : List String}
    (enabled : fields.enabled? type = some names) : AllUnmarked names := by
  have fixed : ∀ field ∈ type.fields, Unmarked field.2 := by
    cases type <;> simp [PacketType.fields] <;> and_intros <;> exact unmarked_ofList (by decide)
  rw [HashedFields.enabled?] at enabled
  split at enabled
  next => cases enabled
  next =>
    cases enabled
    refine allUnmarked_map.mpr fun field member => ?_
    split
    · exact fixed field member
    · exact List.not_mem_nil

theorem unmarked_fieldsText (fields : HashedFields) : Unmarked (fieldsText fields) := by
  have disabled : Unmarked (if fields.isDisabled then "RSS disable" else "") := by
    split <;> exact unmarked_ofList (by decide)
  have lines : AllUnmarked (PacketType.all.filterMap fun type =>
      (fields.enabled? type).map fun names =>
        type.name ++ " enable field: " ++ " ".intercalate names) := by
    intro line member
    obtain ⟨type, _, shown⟩ := List.mem_filterMap.mp member
    obtain ⟨names, enabled, rfl⟩ := Option.map_eq_some_iff.mp shown
    have name : Unmarked type.name := by
      cases type <;> exact unmarked_ofList (by decide)
    rw [unmarked_append, unmarked_append]
    exact ⟨⟨name, unmarked_ofList (by decide)⟩,
      unmarked_intercalate (by decide) (unmarked_enabled enabled)⟩
  rw [fieldsText, unmarked_append, unmarked_append, unmarked_lines]
  exact ⟨⟨disabled, lines⟩, by decide⟩

theorem allUnmarked_redirectionLines (table : RedirectionTable) :
    AllUnmarked (redirectionLines table) := by
  simp [redirectionLines]
  intros
  and_intros <;> exact unmarked_ofList (by decide)

theorem allUnmarked_classLines (classes : List TrafficClass) :
    AllUnmarked (classLines classes) := by
  simp [classLines]
  and_intros <;> intros <;> and_intros <;> exact unmarked_ofList (by decide)

theorem unmarked_truncation (isTruncated : Bool) :
    ∀ text, .text text ∈ truncation isTruncated → Unmarked text := by
  intro text member
  cases isTruncated with
  | true => cases List.mem_singleton.mp member
  | false => cases member

/-- No text of a view has a number sign. -/
theorem unmarked_view (tables : Tables) : Unmarked tables.view.text := by
  refine unmarked_text fun text member => ?_
  cases tables with
  | algorithm found =>
    cases List.mem_singleton.mp member
    exact unmarked_algorithmText found
  | key found =>
    rcases List.mem_append.mp member with shown | last
    · rcases List.mem_cons.mp shown with same | noted
      · cases same
        exact unmarked_keyText found
      · exact unmarked_truncation _ text noted
    · cases List.mem_singleton.mp last
      decide
  | fields found =>
    cases List.mem_singleton.mp member
    exact unmarked_fieldsText found
  | redirections found =>
    rcases List.mem_cons.mp member with same | noted
    · cases same
      exact unmarked_lines.mpr (allUnmarked_redirectionLines found)
    · exact unmarked_truncation _ text noted
  | classes found =>
    cases List.mem_singleton.mp member
    exact unmarked_lines.mpr (allUnmarked_classLines found)

end Scaling.Tables

end NicScope
