/-
This file proves that taking an action apart undoes its layout. An action is made of parts that have
bits of their own in one of its two words; the highest bits of a queue and of a counter are parts
apart from the others. What is decoded has in each part that is switched on the number that stands
there, and zero in the others. So words are decoded as an action exactly if the action fits its
parts and these stand in the words, whatever is in the other bits; and no size of a region is so
large that the number of its queues would not fit a word.
-/

import Mathlib.Data.Nat.Bitwise
import NicScope.Command.DirectorView
import NicScope.Proofs.Tables.MetaFields

namespace NicScope

namespace Action

/-! ### Layout -/

/-- One of the two words of an action. -/
inductive Half where
  | low
  | high
  deriving DecidableEq

/-- Consecutive bits of one of the two words. -/
structure Span where
  half : Half
  lowest : Nat
  width : Nat
  deriving DecidableEq

/-- The parts of an action that have bits of their own. -/
inductive Part where
  | drop
  | directQueue
  | queue
  | queueTop
  | counterValid
  | counter
  | counterTop
  | nextValid
  | nextKey
  | ruleValid
  | rule
  | regionEnabled
  | regionSize
  deriving DecidableEq

namespace Part

def all : List Part :=
  [drop, directQueue, queue, queueTop, counterValid, counter, counterTop, nextValid, nextKey,
    ruleValid, rule, regionEnabled, regionSize]

/-- Where a part stands. -/
def span : Part → Span
  | drop => ⟨.low, 0, 1⟩
  | directQueue => ⟨.low, 1, 1⟩
  | queue => ⟨.low, 2, 10⟩
  | counterValid => ⟨.low, 12, 1⟩
  | counter => ⟨.low, 13, 7⟩
  | nextValid => ⟨.low, 20, 1⟩
  | nextKey => ⟨.low, 21, 5⟩
  | ruleValid => ⟨.high, 0, 1⟩
  | rule => ⟨.high, 1, 12⟩
  | regionEnabled => ⟨.high, 16, 1⟩
  | regionSize => ⟨.high, 17, 4⟩
  | queueTop => ⟨.high, 21, 1⟩
  | counterTop => ⟨.high, 26, 1⟩

/-- The number that stands in a part. -/
def read (low high : UInt32) (part : Part) : Nat :=
  (match part.span.half with
    | .low => low.toNat
    | .high => high.toNat) / 2 ^ part.span.lowest % 2 ^ part.span.width

end Part

/-- What an action has in a part. -/
def value (action : Action) : Part → Nat
  | .drop => action.drop.toNat
  | .directQueue => action.directQueue.toNat
  | .queue => action.queue.toNat % 2 ^ 10
  | .queueTop => action.queue.toNat / 2 ^ 10
  | .counterValid => action.counterValid.toNat
  | .counter => action.counter.toNat % 2 ^ 7
  | .counterTop => action.counter.toNat / 2 ^ 7
  | .nextValid => action.nextValid.toNat
  | .nextKey => action.nextKey.toNat
  | .ruleValid => action.ruleValid.toNat
  | .rule => action.rule.toNat
  | .regionEnabled => action.regionEnabled.toNat
  | .regionSize => action.regionSize.toNat

/-- Whether a part is switched on. The switches themselves always are. -/
def isOn (action : Action) : Part → Bool
  | .queue | .queueTop => action.directQueue || action.regionEnabled
  | .counter | .counterTop => action.counterValid
  | .nextKey => action.nextValid
  | .rule => action.ruleValid
  | .regionSize => action.regionEnabled
  | _ => true

/-- The numbers of an action are in range, and zero where they are switched off. -/
structure Proper (action : Action) : Prop where
  queue : action.queue.toNat < 2 ^ 11
  counter : action.counter.toNat < 2 ^ 8
  nextKey : action.nextKey.toNat < 2 ^ 5
  rule : action.rule.toNat < 2 ^ 12
  regionSize : action.regionSize.toNat < 2 ^ 4
  queueOff : action.directQueue = false → action.regionEnabled = false → action.queue = 0
  counterOff : action.counterValid = false → action.counter = 0
  nextKeyOff : action.nextValid = false → action.nextKey = 0
  ruleOff : action.ruleValid = false → action.rule = 0
  regionSizeOff : action.regionEnabled = false → action.regionSize = 0

/-- The part that a bit of a word belongs to, if it belongs to one. -/
def partAt (half : Half) (bit : Nat) : Option Part :=
  Part.all.find? fun part =>
    part.span.half == half && decide (part.span.lowest ≤ bit) &&
      decide (bit < part.span.lowest + part.span.width)

/-- A word of an action with its parts in their places, and the other bits as in `others`. -/
def placed (action : Action) (half : Half) (others : UInt32) : UInt32 :=
  UInt32.ofNat (Nat.ofBits fun bit : Fin 32 =>
    match partAt half bit with
    | some part => (action.value part).testBit (bit - part.span.lowest)
    | none => Bits.flag others bit)

/-! ### Reading what was placed -/

section Placed

variable (action : Action) (half : Half) (others : UInt32)

theorem testBit_placed {bit : Nat} (inside : bit < 32) :
    (action.placed half others).toNat.testBit bit =
      match partAt half bit with
      | some part => (action.value part).testBit (bit - part.span.lowest)
      | none => Bits.flag others bit := by
  rw [placed, UInt32.toNat_ofNat_of_lt' (Nat.ofBits_lt_two_pow _),
    Nat.testBit_ofBits_lt _ _ inside]

/-- No two parts share a bit. -/
theorem partAt_span (part : Part) :
    ∀ offset < part.span.width,
      part.span.lowest + offset < 32 ∧
        partAt part.span.half (part.span.lowest + offset) = some part := by
  cases part <;> decide

/-- Words with the parts of an action in their places are read as they were placed. -/
theorem read_placed {action : Action} {part : Part}
    (fits : action.value part < 2 ^ part.span.width) (low high : UInt32) :
    part.read (action.placed .low low) (action.placed .high high) = action.value part := by
  have word : (match part.span.half with
      | .low => (action.placed .low low).toNat
      | .high => (action.placed .high high).toNat) =
      (action.placed part.span.half
        (match part.span.half with | .low => low | .high => high)).toNat := by
    cases part.span.half <;> rfl
  apply Nat.eq_of_testBit_eq
  intro offset
  rw [Part.read, word, Nat.testBit_mod_two_pow, Nat.testBit_div_two_pow, Nat.add_comm offset]
  by_cases inside : offset < part.span.width
  · obtain ⟨below, own⟩ := partAt_span part offset inside
    rw [testBit_placed _ _ _ below, own, decide_eq_true inside, Bool.true_and]
    dsimp only
    rw [Nat.add_sub_cancel_left]
  · have beyond : action.value part < 2 ^ offset :=
      fits.trans_le (Nat.pow_le_pow_right (by decide) (Nat.not_lt.mp inside))
    rw [decide_eq_false inside, Bool.false_and, Nat.testBit_eq_false_of_lt beyond]

end Placed

/-! ### What is decoded -/

section Decoded

variable {low high : UInt32}

theorem toNat_bits {top lowest : Nat} (order : lowest ≤ top) (inside : top < 32)
    (short : top + 1 - lowest ≤ 16) (word : UInt32) :
    (bits word (UInt32.ofNat top) (UInt32.ofNat lowest)).toNat =
      word.toNat / 2 ^ lowest % 2 ^ (top + 1 - lowest) := by
  have small : word.toNat / 2 ^ lowest % 2 ^ (top + 1 - lowest) < 2 ^ 16 :=
    (Nat.mod_lt _ (Nat.two_pow_pos _)).trans_le (Nat.pow_le_pow_right (by decide) short)
  rw [bits, UInt64.toNat_toUInt16, Bits.toNat_field_mask order (by omega), UInt32.toNat_toUInt64,
    Nat.mod_eq_of_lt small]

theorem toNat_flag (word : UInt32) (bit : Nat) :
    (Bits.flag word bit).toNat = word.toNat / 2 ^ bit % 2 ^ 1 :=
  Nat.toNat_testBit word.toNat bit

theorem toNat_splitBit (word : UInt32) (position : Nat) {target : Nat} (inside : target < 16) :
    (splitBit word position (UInt16.ofNat target)).toNat =
      2 ^ target * (word.toNat / 2 ^ position % 2 ^ 1) := by
  have place : (UInt16.ofNat target).toNat = target :=
    UInt16.toNat_ofNat_of_lt' (inside.trans (by decide))
  have small : 2 ^ target < 2 ^ 16 := Nat.pow_lt_pow_right (by decide) inside
  rw [splitBit, UInt16.toNat_shiftLeft, place, Nat.mod_eq_of_lt inside, Nat.shiftLeft_eq,
    ← toNat_flag]
  cases Bits.flag word position with
  | false => rw [if_neg nofun, UInt16.toNat_zero, Nat.zero_mul, Nat.zero_mod]; rfl
  | true => rw [if_pos rfl, UInt16.toNat_one, Nat.one_mul, Nat.mod_eq_of_lt small, Bool.toNat_true,
      Nat.mul_one]

/-- A highest bit from one word in front of bits of the other makes one number of both. -/
theorem toNat_joined {top lowest : Nat} (order : lowest ≤ top) (inside : top < 32)
    (short : top + 1 - lowest < 16) (word other : UInt32) (position : Nat) :
    (splitBit word position (UInt16.ofNat (top + 1 - lowest)) |||
        bits other (UInt32.ofNat top) (UInt32.ofNat lowest)).toNat =
      2 ^ (top + 1 - lowest) * (word.toNat / 2 ^ position % 2 ^ 1) +
        other.toNat / 2 ^ lowest % 2 ^ (top + 1 - lowest) := by
  rw [UInt16.toNat_or, toNat_splitBit word position short,
    toNat_bits order inside (Nat.le_of_lt short),
    Nat.two_pow_add_eq_or_of_lt (Nat.mod_lt _ (Nat.two_pow_pos _))]

/-- A number that is zero where it is switched off. -/
theorem of_switched (of : Nat → Nat) (zero : of 0 = 0) (isOn : Bool) {number : UInt16} {read : Nat}
    (same : of number.toNat = read) :
    of (if isOn then number else 0).toNat = if isOn then read else 0 := by
  cases isOn with
  | false => exact zero
  | true => exact same

/-- What is decoded has in a part that is switched on what stands there, and zero in the others. -/
theorem value_ofWords (low high : UInt32) (part : Part) :
    (ofWords low high).value part =
      if (ofWords low high).isOn part then part.read low high else 0 := by
  have bottom {width number : Nat} (quotient : Nat) :
      (2 ^ width * quotient + number % 2 ^ width) % 2 ^ width = number % 2 ^ width := by
    rw [Nat.mul_add_mod, Nat.mod_mod]
  have top {width number : Nat} (quotient : Nat) :
      (2 ^ width * quotient + number % 2 ^ width) / 2 ^ width = quotient := by
    rw [Nat.mul_add_div (Nat.two_pow_pos _),
      Nat.div_eq_of_lt (Nat.mod_lt _ (Nat.two_pow_pos _)), Nat.add_zero]
  have queue := toNat_joined (show 2 ≤ 11 by decide) (by decide) (by decide) high low 21
  have counter := toNat_joined (show 13 ≤ 19 by decide) (by decide) (by decide) high low 26
  cases part with
  | drop => exact toNat_flag low 0
  | directQueue => exact toNat_flag low 1
  | counterValid => exact toNat_flag low 12
  | nextValid => exact toNat_flag low 20
  | ruleValid => exact toNat_flag high 0
  | regionEnabled => exact toNat_flag high 16
  | queue =>
    exact of_switched (· % 2 ^ 10) rfl _ ((congrArg (· % 2 ^ 10) queue).trans (bottom _))
  | queueTop =>
    exact of_switched (· / 2 ^ 10) rfl _ ((congrArg (· / 2 ^ 10) queue).trans (top _))
  | counter =>
    exact of_switched (· % 2 ^ 7) rfl _ ((congrArg (· % 2 ^ 7) counter).trans (bottom _))
  | counterTop =>
    exact of_switched (· / 2 ^ 7) rfl _ ((congrArg (· / 2 ^ 7) counter).trans (top _))
  | nextKey =>
    exact of_switched id rfl _
      (toNat_bits (show 21 ≤ 25 by decide) (by decide) (by decide) low)
  | rule =>
    exact of_switched id rfl _
      (toNat_bits (show 1 ≤ 12 by decide) (by decide) (by decide) high)
  | regionSize =>
    exact of_switched id rfl _
      (toNat_bits (show 17 ≤ 20 by decide) (by decide) (by decide) high)

end Decoded

/-! ### Actions and their words -/

section Words

variable {action : Action} {low high : UInt32}

theorem switch_eq {first second : Bool} (same : first.toNat = second.toNat) : first = second := by
  rw [Bool.eq_iff_iff, ← Bool.toNat_eq_one, same, Bool.toNat_eq_one]

/-- An action is known from what it has in its parts. -/
theorem eq_of_value {first second : Action}
    (same : ∀ part, first.value part = second.value part) : first = second := by
  have split {width : Nat} {number number' : UInt16}
      (bottom : number.toNat % 2 ^ width = number'.toNat % 2 ^ width)
      (top : number.toNat / 2 ^ width = number'.toNat / 2 ^ width) : number = number' := by
    apply UInt16.toNat_inj.mp
    rw [← Nat.div_add_mod number.toNat (2 ^ width), bottom, top, Nat.div_add_mod]
  rw [Action.mk.injEq]
  exact ⟨switch_eq (same .drop), switch_eq (same .directQueue),
    split (same .queue) (same .queueTop), switch_eq (same .counterValid),
    split (same .counter) (same .counterTop), switch_eq (same .nextValid),
    UInt16.toNat_inj.mp (same .nextKey), switch_eq (same .ruleValid),
    UInt16.toNat_inj.mp (same .rule), switch_eq (same .regionEnabled),
    UInt16.toNat_inj.mp (same .regionSize)⟩

theorem Proper.value_lt (proper : action.Proper) (part : Part) :
    action.value part < 2 ^ part.span.width := by
  cases part with
  | drop | directQueue | counterValid | nextValid | ruleValid | regionEnabled =>
    exact Bool.toNat_lt _
  | queue | counter => exact Nat.mod_lt _ (Nat.two_pow_pos _)
  | queueTop => exact Nat.div_lt_of_lt_mul proper.queue
  | counterTop => exact Nat.div_lt_of_lt_mul proper.counter
  | nextKey => exact proper.nextKey
  | rule => exact proper.rule
  | regionSize => exact proper.regionSize

theorem Proper.value_of_off (proper : action.Proper) {part : Part}
    (off : action.isOn part = false) : action.value part = 0 := by
  have zero {number : UInt16} (same : number = 0) : number.toNat = 0 := congrArg UInt16.toNat same
  cases part with
  | drop | directQueue | counterValid | nextValid | ruleValid | regionEnabled => cases off
  | queue =>
    obtain ⟨direct, region⟩ := Bool.or_eq_false_iff.mp off
    rw [value, zero (proper.queueOff direct region), Nat.zero_mod]
  | queueTop =>
    obtain ⟨direct, region⟩ := Bool.or_eq_false_iff.mp off
    rw [value, zero (proper.queueOff direct region), Nat.zero_div]
  | counter => rw [value, zero (proper.counterOff off), Nat.zero_mod]
  | counterTop => rw [value, zero (proper.counterOff off), Nat.zero_div]
  | nextKey => exact zero (proper.nextKeyOff off)
  | rule => exact zero (proper.ruleOff off)
  | regionSize => exact zero (proper.regionSizeOff off)

/-- What is decoded is in range, and zero where it is switched off. -/
theorem proper_ofWords (low high : UInt32) : (ofWords low high).Proper := by
  have small (part : Part) : (ofWords low high).value part < 2 ^ part.span.width := by
    rw [value_ofWords]
    split
    · exact Nat.mod_lt _ (Nat.two_pow_pos _)
    · exact Nat.two_pow_pos _
  have below (bits : Nat) {width number : Nat} (top : number / 2 ^ width < 2 ^ bits) :
      number < 2 ^ (width + bits) := by
    rw [Nat.pow_add]
    rw [Nat.mul_comm]
    exact (Nat.div_lt_iff_lt_mul (Nat.two_pow_pos width)).mp top
  have off {on : Bool} {number : UInt16} (isOff : on = false) :
      (if on then number else 0) = 0 := if_neg (ne_true_of_eq_false isOff)
  exact
    { queue := below 1 (small .queueTop)
      counter := below 1 (small .counterTop)
      nextKey := small .nextKey
      rule := small .rule
      regionSize := small .regionSize
      queueOff := fun direct region => off (Bool.or_eq_false_iff.mpr ⟨direct, region⟩)
      counterOff := off
      nextKeyOff := off
      ruleOff := off
      regionSizeOff := off }

/-- The parts of an action that are switched on stand in two words. -/
def StandsIn (action : Action) (low high : UInt32) : Prop :=
  ∀ part, action.isOn part = true → part.read low high = action.value part

/-- Words are decoded as an action exactly if it fits its parts and these stand in the words. -/
theorem ofWords_eq_iff :
    ofWords low high = action ↔ action.Proper ∧ action.StandsIn low high := by
  constructor
  · rintro rfl
    refine ⟨proper_ofWords low high, fun part isOn => ?_⟩
    rw [value_ofWords, if_pos isOn]
  · rintro ⟨proper, stands⟩
    -- The switches are always on, so they agree, and with them what is switched on.
    have switches (part : Part) (always : ∀ action : Action, action.isOn part = true) :
        (ofWords low high).value part = action.value part := by
      rw [value_ofWords, if_pos (always _), stands part (always action)]
    have direct : (ofWords low high).directQueue = action.directQueue :=
      switch_eq (switches .directQueue fun _ => rfl)
    have region : (ofWords low high).regionEnabled = action.regionEnabled :=
      switch_eq (switches .regionEnabled fun _ => rfl)
    have counter : (ofWords low high).counterValid = action.counterValid :=
      switch_eq (switches .counterValid fun _ => rfl)
    have next : (ofWords low high).nextValid = action.nextValid :=
      switch_eq (switches .nextValid fun _ => rfl)
    have rule : (ofWords low high).ruleValid = action.ruleValid :=
      switch_eq (switches .ruleValid fun _ => rfl)
    have same (part : Part) : (ofWords low high).isOn part = action.isOn part := by
      cases part <;> simp only [isOn, direct, region, counter, next, rule]
    refine eq_of_value fun part => ?_
    rw [value_ofWords, same]
    split
    next isOn => exact stands part isOn
    next isOff => exact (proper.value_of_off (eq_false_of_ne_true isOff)).symm

/-- An action that was placed is decoded, whatever is in the other bits. -/
theorem ofWords_placed (proper : action.Proper) (low high : UInt32) :
    ofWords (action.placed .low low) (action.placed .high high) = action :=
  ofWords_eq_iff.mpr ⟨proper, fun part _ => read_placed (proper.value_lt part) low high⟩

/-- The number of queues of a region does not overflow. -/
theorem toNat_regionQueues (proper : action.Proper) :
    ((1 : UInt32) <<< action.regionSize.toUInt32).toNat = 2 ^ action.regionSize.toNat := by
  have short := proper.regionSize
  have shift : action.regionSize.toNat < 32 := by omega
  rw [UInt32.toNat_shiftLeft, UInt16.toNat_toUInt32, Nat.mod_eq_of_lt shift, Nat.shiftLeft_eq,
    UInt32.toNat_one, Nat.one_mul, Nat.mod_eq_of_lt (Nat.pow_lt_pow_right (by decide) shift)]

end Words

/-- An action whose numbers are in range, and zero where they are switched off, is decoded from any
two words in which it was placed, whatever is in their other bits; two words are decoded as an
action exactly if its numbers are so and what is switched on stands in the words. What is decoded is
always in range, so the number of queues of a region is the power of two that its size says. -/
theorem ofWords_undoes_layout :
    (∀ action : Action, action.Proper → ∀ low high : UInt32,
      ofWords (action.placed .low low) (action.placed .high high) = action) ∧
    (∀ (action : Action) (half : Half) (others : UInt32), ∀ bit < 32, partAt half bit = none →
      Bits.flag (action.placed half others) bit = Bits.flag others bit) ∧
    (∀ (action : Action) (low high : UInt32),
      ofWords low high = action ↔ action.Proper ∧ action.StandsIn low high) ∧
    ∀ low high : UInt32, (ofWords low high).Proper ∧
      ((1 : UInt32) <<< (ofWords low high).regionSize.toUInt32).toNat =
        2 ^ (ofWords low high).regionSize.toNat ∧
      ((ofWords low high).regionEnabled = true →
        ∃ front, DirectorTables.actionText (ofWords low high) =
          front ++ "    Queue region size: " ++
            Numeral.decimal (2 ^ (ofWords low high).regionSize.toNat)) := by
  refine ⟨fun action proper => ofWords_placed proper, ?_,
    fun action low high => ofWords_eq_iff, ?_⟩
  · intro action half others bit inside free
    rw [Bits.flag, testBit_placed _ _ _ inside, free]
  · intro low high
    have proper := proper_ofWords low high
    have queues := toNat_regionQueues proper
    refine ⟨proper, queues, fun enabled => ?_⟩
    rw [← queues, DirectorTables.actionText]
    dsimp only
    rw [if_pos enabled]
    rw [← String.append_assoc, ← String.append_assoc]
    exact ⟨_, rfl⟩

end Action

end NicScope
