/-
This file follows what the check before a dump of the rules is worth when the rules are taken
apart. It compares the bits that the mode uses with those that a key half has. The meta data lies
at the end of the used bits, so on accepted hardware every rule has it, and it is read and written
without loss. The tuples start from the other end and may go on behind the used bits: for them
the check does not do, and those that lie outside a half are left out in silence.
-/

import NicScope.Proofs.Command.RuleKeys
import NicScope.Proofs.Tables.KeyPlaces
import NicScope.Proofs.Tables.MetaFields
import NicScope.Proofs.Tables.Records

namespace NicScope

variable {resources : DirectorResources} {payload : Bytes} {rule : Rule}

/-! ### What is accepted -/

/-- A known mode uses fifty or twenty-five whole bytes of a key. -/
theorem TableMode.exists_bytes_of_keyBits? {mode : TableMode} {bits : UInt16}
    (known : mode.keyBits? = some bits) :
    ∃ active, bits.toNat = 8 * active ∧ (active = 50 ∨ active = 25) := by
  cases mode with
  | unknown code => cases known
  | depth2kWidth400Stage1 => cases known; exact ⟨50, rfl, .inl rfl⟩
  | depth1kWidth400Stage2 => cases known; exact ⟨50, rfl, .inl rfl⟩
  | depth4kWidth200Stage1 => cases known; exact ⟨25, rfl, .inr rfl⟩
  | depth2kWidth200Stage2 => cases known; exact ⟨25, rfl, .inr rfl⟩

/-- A key half of accepted hardware has the bits that the mode uses. -/
theorem Director.activeBits_le_of_accepted
    (accepted : (Director.checkHardware .rules resources).run.Held [] (.ok ())) :
    resources.activeBits ≤ 8 * resources.keyBytes.toNat := by
  have verdict := ((held_checkHardware_rules_iff.mp accepted).2).symm
  rw [resources.toNat_keyBytes]
  exact (rulesVerdict_eq_ok_iff_readable.mp verdict).1.wide

/-! ### Hardware with narrow keys -/

/-- A record of hardware whose keys have the 400 bits that its mode uses, and that builds the keys
of its first stage from all tuple fields. -/
def narrowRecord : Bytes :=
  [0, 1, 0x90, 1, 1, 0, 0, 0, 0, 0, 0, 0, 8, 0, 0, 0] ++
    [0, 1, 0, 0, 0, 0, 0, 0, 0, 0, 0, 0, 0, 0, 0, 0] ++
    [1, 1, 0, 0, 0, 0, 0, 0, 0, 0, 0, 0, 0, 0, 0, 0]

/-- What the record says. -/
def narrowResources : DirectorResources :=
  { Director.widestResources with
    keyBits := 400
    keys := #v[⟨0, 1, 0, 0, 0, 0, 0, 0⟩, ⟨1, 1, 0, 0, 0, 0, 0, 0⟩] }

/-- The bytes of a rule that asks every bit of its key to be clear. -/
def clearedEntry : Bytes :=
  [0, 0, 0, 0, 1, 0, 0, 0, 0, 0, 0, 0, 0, 0, 0, 0] ++
    (List.replicate 52 0xff ++ List.replicate 52 0)

/-- What the bytes say. -/
def clearedRule : Rule where
  index := 0
  valid := 1
  actionLow := 0
  actionHigh := 0
  keyX := List.replicate 52 0xff
  keyY := List.replicate 52 0

theorem narrowResources_accepted :
    (Director.checkHardware .rules narrowResources).run.Held [] (.ok ()) :=
  Director.held_checkHardware_rules_iff.mpr ⟨rfl, by decide⟩

theorem parse_clearedEntry :
    Rule.parse narrowResources.keyBytes.toNat clearedEntry = .ok clearedRule :=
  rfl

/-! ### Meta data -/

/-- Every rule of accepted hardware in a known mode has meta data, and what is packed into it is
what is read from it. -/
theorem Rule.metaData_of_accepted {bits : UInt16}
    (accepted : (Director.checkHardware .rules resources).run.Held [] (.ok ()))
    (known : resources.mode.keyBits? = some bits)
    (parsed : Rule.parse resources.keyBytes.toNat payload = .ok rule) (key : StageKey) :
    ∃ active, bits.toNat = 8 * active ∧ (active = 50 ∨ active = 25) ∧
      key.HasMeta active rule.keyY ∧
      (∃ data, rule.metaData? resources.mode key = some data ∧
        data.Reads key (rule.metaSlice key active)) ∧
      ∀ (values : List Nat) (padding : Nat),
        List.Forall₂ MetaData.Suits key.activeMeta.reverse values →
        padding < 2 ^ (8 * key.metaBytes - key.metaBits) →
        ∃ data, (rule.withMeta key active (key.metaNumber values padding)).metaData?
            resources.mode key = some data ∧
          data.Reads key (Bytes.ofNat key.metaBytes (key.metaNumber values padding)) ∧
          data.fields.map (·.value.toNat) = values := by
  obtain ⟨active, whole, either⟩ := TableMode.exists_bytes_of_keyBits? known
  have used := Director.activeBits_le_of_accepted accepted
  rw [DirectorResources.activeBits, known, Option.getD_some, whole,
    ← (length_keys_of_parse parsed).2] at used
  have fits : key.HasMeta active rule.keyY := StageKey.hasMeta_of_le (by omega) (by omega)
  exact ⟨active, whole, either, fits, metaData?_of_hasMeta known whole fits,
    fun values padding suit below => metaData?_withMeta known whole fits suit below⟩

/-- A key with three meta data fields of eighteen bits in three bytes. -/
def threeFields : StageKey :=
  ⟨0, 1, 0, 0, 0, 0, 0xffffffff, 0xffffff37⟩

/-- A tunnel packet for the port 0xabc with the next key 17: the values are read back, and the
six bits below them are not. -/
theorem Rule.metaData_of_accepted_threeFields :
    (Director.checkHardware .rules narrowResources).run.Held [] (.ok ()) ∧
      narrowResources.mode.keyBits? = some 400 ∧
      Rule.parse narrowResources.keyBytes.toNat clearedEntry = .ok clearedRule ∧
      threeFields.activeMeta.reverse.map (·.name) = ["tunnel_packet", "des_port", "next_key"] ∧
      ∃ data, (clearedRule.withMeta threeFields 50
          (threeFields.metaNumber [1, 0xabc, 17] 0x2a)).metaData? narrowResources.mode threeFields =
          some data ∧
        data.fields.map (·.value.toNat) = [1, 0xabc, 17] := by
  have known : narrowResources.mode.keyBits? = some 400 := rfl
  refine ⟨narrowResources_accepted, known, parse_clearedEntry, by decide, ?_⟩
  obtain ⟨active, whole, -, -, -, packed⟩ :=
    metaData_of_accepted narrowResources_accepted known parse_clearedEntry threeFields
  obtain rfl : active = 50 := by
    change 400 = 8 * active at whole
    omega
  have suit : List.Forall₂ MetaData.Suits threeFields.activeMeta.reverse [1, 0xabc, 17] :=
    .cons (by decide) (.cons (by decide) (.cons (by decide) .nil))
  obtain ⟨data, decoded, -, values⟩ := packed _ 0x2a suit (by decide)
  exact ⟨data, decoded, values⟩

/-! ### Tuples -/

/-- A rule of accepted hardware has the tuples of all fields that lie inside its halves and are
compared. Fields inside the bits that the mode uses do; for all active fields to do, the halves
have to be as long as these together, and that long for every key only from eighty-four bytes. -/
theorem Rule.tuples_of_accepted
    (accepted : (Director.checkHardware .rules resources).run.Held [] (.ok ()))
    (parsed : Rule.parse resources.keyBytes.toNat payload = .ok rule) (key : StageKey) :
    rule.tuples key = (key.places.filterMap fun place => place.read? rule) ∧
      (∀ place ∈ key.places, place.read? rule = none ↔
        resources.keyBytes.toNat < place.stop ∨ place.mask rule = 0) ∧
      (∀ place ∈ key.places, 8 * place.stop ≤ resources.activeBits →
        place.stop ≤ resources.keyBytes.toNat) ∧
      ((∀ place ∈ key.places, place.stop ≤ resources.keyBytes.toNat) ↔
        key.tupleBytes ≤ resources.keyBytes.toNat) ∧
      ((∀ other : StageKey, ∀ place ∈ other.places, place.stop ≤ resources.keyBytes.toNat) ↔
        84 ≤ resources.keyBytes.toNat) := by
  obtain ⟨lengthX, lengthY⟩ := length_keys_of_parse parsed
  refine ⟨rule.tuples_eq_filterMap key, ?_, ?_, key.forall_places_iff, ?_⟩
  · intro place member
    rw [KeyPlace.read?_eq_none_iff (StageKey.whole_of_mem_places member), lengthX, lengthY, or_self]
  · intro place _ used
    have := Director.activeBits_le_of_accepted accepted
    omega
  · simp only [StageKey.forall_places_iff, StageKey.forall_tupleBytes_le_iff]

/-- The narrow keys are too short for all tuple fields. -/
theorem Rule.tuples_of_accepted_narrow :
    (Director.checkHardware .rules narrowResources).run.Held [] (.ok ()) ∧
      Rule.parse narrowResources.keyBytes.toNat clearedEntry = .ok clearedRule ∧
      ∃ place ∈ (narrowResources.keys.get 0).places,
        narrowResources.keyBytes.toNat < place.stop := by
  obtain ⟨-, -, -, fit, -⟩ := tuples_of_accepted narrowResources_accepted parse_clearedEntry
    (narrowResources.keys.get 0)
  have short : ¬ (narrowResources.keys.get 0).tupleBytes ≤ narrowResources.keyBytes.toNat := by
    decide
  rw [← fit] at short
  push Not at short
  exact ⟨narrowResources_accepted, parse_clearedEntry, short⟩

/-- A rule of accepted hardware compares bits of an active field and yet has no tuple for it,
since the key ends within the field. -/
theorem Rule.tuples_lack_compared_field :
    Record.parse narrowRecord = .ok narrowResources ∧
      (Director.checkHardware .rules narrowResources).run.Held [] (.ok ()) ∧
      narrowResources.entries.get 0 ≠ 0 ∧
      Rule.parse narrowResources.keyBytes.toNat clearedEntry = .ok clearedRule ∧
      ∃ place ∈ (narrowResources.keys.get 0).places,
        place.field.name = "in_smac" ∧ narrowResources.keyBytes.toNat < place.stop ∧
        place.mask clearedRule ≠ 0 ∧ place.read? clearedRule = none ∧
        ∀ tuple ∈ clearedRule.tuples (narrowResources.keys.get 0), tuple.name ≠ "in_smac" := by
  refine ⟨by decide, narrowResources_accepted, by decide, parse_clearedEntry,
    ⟨⟨"in_smac", 48, .mac⟩, 50⟩, ?_⟩
  decide

end NicScope
