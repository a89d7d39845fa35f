/-
This file says where the bytes of a table come from. A page brings the bytes of the entries that
it counts as far as it carries them, and where it carries fewer, zeroes stand for the rest: no
page is rejected for that. So what is read consists of delivered bytes alone exactly if every
page carries all entries that it counts.
-/

import NicScope.Proofs.Transfer.EntryAccounting

namespace NicScope

open Dialogue

/-! ### One page -/

/-- A payload that is placed behind what is kept follows it, filled up with zeroes to its size. -/
theorem EntryRun.place_behind (data : Bytes) (size : Nat) (payload : Bytes) :
    place data data.length size payload = data ++ Bytes.resize size payload := by
  have room : Bytes.resize (data.length + size) data = data ++ List.replicate size 0 := by
    rw [Bytes.resize, List.take_of_length_le (Nat.le_add_right _ _), Nat.add_sub_cancel_left]
  have left : size - (payload.take size).length = size - payload.length := by
    rw [List.length_take]
    omega
  rw [place, room, List.take_left, List.append_assoc, List.drop_length_add_append,
    List.drop_replicate, left, Bytes.resize]

variable (η : Type) [BlockHead η] (paging : Paging)

/-- The bytes of the entries that a reply counts. -/
def sizeCounted (reply : Reply) : Nat :=
  (entriesCounted η reply).toNat * paging.entrySize

/-- The entries that a reply counts, as far as it carries them. -/
def entriesCarried (reply : Reply) : Bytes :=
  (payloadOf η reply).take (sizeCounted η paging reply)

/-- The entries that a reply counts, with zeroes for what it does not carry of them. -/
def entriesFilled (reply : Reply) : Bytes :=
  Bytes.resize (sizeCounted η paging reply) (payloadOf η reply)

/-- A reply that declares at least the bytes of the entries that it counts. -/
def CarriesEntries (reply : Reply) : Prop :=
  ∃ head rest, opened? η reply = some (head, rest) ∧
    (BlockHead.entryCount head).toNat * paging.entrySize ≤ declaredSize η head

variable {η paging}

theorem length_entriesFilled (reply : Reply) :
    (entriesFilled η paging reply).length = sizeCounted η paging reply :=
  Bytes.length_resize _ _

theorem length_entriesCarried (reply : Reply) :
    (entriesCarried η paging reply).length =
      min (sizeCounted η paging reply) (payloadOf η reply).length :=
  List.length_take

/-- A reply that fits carries its entries if its payload is long enough for them. -/
theorem carriesEntries_iff {room : Nat} {reply : Reply} (fits : Fits η room reply) :
    CarriesEntries η paging reply ↔
      sizeCounted η paging reply ≤ (payloadOf η reply).length := by
  obtain ⟨head, rest, opens, _, _, carried⟩ := fits
  rw [sizeCounted, entriesCounted_of_opened? opens, payloadOf_of_opened? opens, List.length_take,
    Nat.min_eq_left carried]
  constructor
  · rintro ⟨_, _, again, enough⟩
    cases opens.symm.trans again
    exact enough
  · exact fun enough => ⟨head, rest, opens, enough⟩

/-! ### Pages one after another -/

variable {name : String} {run after : EntryRun} {steps : List (UInt32 × Reply)}

/-- Every page that is taken in fits. -/
theorem fits_of_acceptAll (accepted : EntryRun.acceptAll η name paging steps run = .ok after) :
    ∀ step ∈ steps, ∃ room, Fits η room step.2 := by
  induction steps generalizing run with
  | nil => exact fun _ member => absurd member List.not_mem_nil
  | cons step later inductionHypothesis =>
    obtain ⟨taken, rest⟩ := taken_of_acceptAll_cons accepted
    exact List.forall_mem_cons.mpr ⟨⟨_, taken.fits⟩, inductionHypothesis rest⟩

/-- As long as what is counted has 32 bits, the pages are kept one behind the other. -/
theorem data_of_acceptAll (accepted : EntryRun.acceptAll η name paging steps run = .ok after)
    (aligned : run.data.length = run.count.toNat * paging.entrySize)
    (small : run.count.toNat + entriesDeclared η steps < UInt32.size) :
    after.data = run.data ++ steps.flatMap fun step => entriesFilled η paging step.2 := by
  induction steps generalizing run with
  | nil => rw [← Except.ok.inj accepted, List.flatMap_nil, List.append_nil]
  | cons step later inductionHypothesis =>
    obtain ⟨_, rest⟩ := taken_of_acceptAll_cons accepted
    rw [entriesDeclared_cons] at small
    have counted : (run.extended η paging step.2).count.toNat =
        run.count.toNat + (entriesCounted η step.2).toNat := by
      rw [EntryRun.extended, EntryRun.countWith, toNat_saturatingAdd]
      omega
    have data : (run.extended η paging step.2).data =
        run.data ++ entriesFilled η paging step.2 := by
      rw [EntryRun.extended, ← aligned, EntryRun.place_behind]
      rfl
    rw [inductionHypothesis rest ?_ (by omega), data, List.append_assoc, List.flatMap_cons]
    rw [data, List.length_append, length_entriesFilled, counted, aligned, sizeCounted, Nat.add_mul]

/-- No more is carried than what is filled up. -/
theorem length_carried_le (η : Type) [BlockHead η] (paging : Paging)
    (steps : List (UInt32 × Reply)) :
    (steps.flatMap fun step => entriesCarried η paging step.2).length ≤
      (steps.flatMap fun step => entriesFilled η paging step.2).length := by
  induction steps with
  | nil => exact Nat.le_refl _
  | cons step later inductionHypothesis =>
    rw [List.flatMap_cons, List.flatMap_cons, List.length_append, List.length_append,
      length_entriesCarried, length_entriesFilled]
    exact Nat.add_le_add (Nat.min_le_left _ _) inductionHypothesis

/-- Nothing is filled up exactly if every page is long enough for its entries. -/
theorem filled_eq_carried_iff :
    (steps.flatMap fun step => entriesFilled η paging step.2) =
        (steps.flatMap fun step => entriesCarried η paging step.2) ↔
      ∀ step ∈ steps, sizeCounted η paging step.2 ≤ (payloadOf η step.2).length := by
  induction steps with
  | nil => exact iff_of_true rfl fun _ member => absurd member List.not_mem_nil
  | cons step later inductionHypothesis =>
    rw [List.flatMap_cons, List.flatMap_cons, List.forall_mem_cons, ← inductionHypothesis]
    constructor
    · intro same
      -- The pages behind this one are no longer carried than filled, so it is not shorter itself.
      have total := congrArg List.length same
      have behind := length_carried_le η paging later
      rw [List.length_append, List.length_append, length_entriesFilled, length_entriesCarried]
        at total
      have enough : sizeCounted η paging step.2 ≤ (payloadOf η step.2).length := by omega
      refine ⟨enough, (List.append_inj same ?_).2⟩
      rw [length_entriesFilled, length_entriesCarried, Nat.min_eq_left enough]
    · rintro ⟨enough, rest⟩
      have none : sizeCounted η paging step.2 - (payloadOf η step.2).length = 0 := by omega
      rw [rest, entriesFilled, Bytes.resize, none, List.replicate_zero, List.append_nil]
      rfl

/-! ### What a reading brings -/

variable (η)

/-- Where the bytes of a reading come from. -/
structure FillsUp (name : String) (paging : Paging) (steps : List (UInt32 × Reply))
    (result : Except Error EntryRun) : Prop where
  /-- What is read is what the pages bring, one after another. -/
  data : ∀ after, result = .ok after →
    after.data = steps.flatMap fun step => entriesFilled η paging step.2
  /-- It is delivered throughout exactly if every page carries the entries that it counts. -/
  delivered : ∀ after, result = .ok after →
    ((after.data = steps.flatMap fun step => entriesCarried η paging step.2) ↔
      ∀ step ∈ steps, CarriesEntries η paging step.2)
  /-- A page is taken in if it fits, advances and counts within the table, however many of its
  entries it carries. -/
  takes : ∀ k index reply before, steps[k]? = some (index, reply) →
    EntryRun.acceptAll η name paging (steps.take k) .empty = .ok before →
    ((∃ after, EntryRun.acceptAll η name paging (steps.take (k + 1)) .empty = .ok after) ↔
      Taken η paging index before reply)

variable {η}

/-- Where nothing is asked, nothing is filled up. -/
theorem FillsUp.ofOverflow : FillsUp η name paging [] (.error .overflow) where
  data := fun _ given => nomatch given
  delivered := fun _ given => nomatch given
  takes := fun _ _ _ _ found => nomatch found

theorem EntryCourse.fillsUp {result : Except Error EntryRun} (sized : ¬ paging.Overflows)
    (course : EntryCourse η name paging paging.start .empty steps result)
    (counted : StaysCounted η name paging steps) : FillsUp η name paging steps result := by
  have data (after : EntryRun) (ends : result = .ok after) :
      after.data = steps.flatMap fun step => entriesFilled η paging step.2 := by
    have accepted := course.acceptAll_eq.trans ends
    have whole : EntryRun.acceptAll η name paging (steps.take steps.length) .empty = .ok after := by
      rwa [List.take_length]
    have small := counted.declared_lt steps.length whole
    rw [List.take_length] at small
    have start : EntryRun.empty.count.toNat = 0 := rfl
    exact data_of_acceptAll accepted (Nat.zero_mul _).symm (by rwa [start, Nat.zero_add])
  refine ⟨data, ?_, ?_⟩
  · intro after ends
    rw [data after ends, filled_eq_carried_iff]
    have fits := fits_of_acceptAll (course.acceptAll_eq.trans ends)
    refine forall₂_congr fun step member => ?_
    obtain ⟨_, fits⟩ := fits step member
    exact (carriesEntries_iff fits).symm
  · intro k index reply before found accepted
    rw [acceptAll_take_succ found accepted]
    constructor
    · rintro ⟨_, further⟩
      exact (taken_of_acceptAll_cons further).1
    · intro taken
      -- An entry was asked for, so the size of the table can be calculated.
      have asked := List.mem_map_of_mem (f := Prod.fst) (List.mem_of_getElem? found)
      have inside := UInt32.lt_of_le_of_lt (course.index_le _ asked) (course.asked_lt _ asked)
      have countable : paging.Countable := Decidable.not_not.mp fun wide => sized ⟨inside, wide⟩
      have small := counted k index reply before found accepted taken
      rw [take_succ_of_found found] at small
      obtain ⟨sum, count⟩ := toNat_countWith accepted small
      have within := UInt32.le_iff_toNat_le.mp taken.within
      exact ⟨_, acceptAll_cons_of_taken taken
        (EntryRun.sizeWith_lt η countable (sum.trans count.symm ▸ within))⟩

/-- As long as what is counted has 32 bits, a reading brings the entries that the pages carry,
filled up with zeroes. -/
theorem readEntries_fillsUp {σ : Type} (fetch : UInt32 → σ → Reply × σ) (log : LogRecord → σ → σ)
    (name : String) (paging : Paging) (state : σ)
    (counted : StaysCounted η name paging
      ((readEntries η name paging).transcript fetch log state)) :
    FillsUp η name paging ((readEntries η name paging).transcript fetch log state)
      ((readEntries η name paging).result fetch log state) := by
  by_cases overflows : paging.Overflows
  · obtain ⟨asked, ends⟩ := readEntries_of_overflows (η := η) fetch log name overflows state
    rw [asked, ends]
    exact .ofOverflow
  · exact (readEntries_course fetch log name overflows state).fillsUp overflows counted

/-! ### A page that carries half an entry -/

/-- A reply that counts one entry and carries four bytes. -/
def halfPage : Reply :=
  .ok ⟨0, 0, [0x401, 1, 1, 0x0d0c0b0a]⟩

theorem carriesBlock_halfPage :
    CarriesBlock EntryHead [0x0a, 0x0b, 0x0c, 0x0d] halfPage ⟨1, 4, 0, 1, 1⟩ :=
  ⟨_, [], rfl, rfl, rfl⟩

/-- A table of one entry of eight bytes takes in half of it, and zeroes. -/
theorem halfPage_course (name : String) :
    EntryCourse EntryHead name (.all 1 8) 0 .empty [(0, halfPage)]
      (.ok ⟨[0x0a, 0x0b, 0x0c, 0x0d, 0, 0, 0, 0], 1⟩) := by
  have next := carriesBlock_halfPage.nextNamed
  have taken : Taken EntryHead (.all 1 8) 0 .empty halfPage :=
    ⟨carriesBlock_halfPage.fits (by decide) (by decide), by rw [next]; decide, by decide⟩
  refine .taken (by decide) taken (by decide) rfl ?_
  rw [next]
  exact .finished (by decide)

/-- The reading of half an entry succeeds, though the page does not carry what it counts. -/
theorem readEntries_halfPage :
    (readEntries EntryHead "mac" (.all 1 8)).transcript ScriptedReplies.answer
        (fun _ script => script) ⟨[halfPage], []⟩ = [(0, halfPage)] ∧
    (readEntries EntryHead "mac" (.all 1 8)).result ScriptedReplies.answer
        (fun _ script => script) ⟨[halfPage], []⟩ =
      .ok ⟨[0x0a, 0x0b, 0x0c, 0x0d, 0, 0, 0, 0], 1⟩ ∧
    ¬ CarriesEntries EntryHead (.all 1 8) halfPage := by
  obtain ⟨asked, ends⟩ := readEntriesFrom_of_course ScriptedReplies.answer
    (fun _ script => script) (by decide) (halfPage_course "mac") ⟨[halfPage], []⟩ rfl
  refine ⟨asked, ends, ?_⟩
  rintro ⟨head, rest, opens, enough⟩
  obtain ⟨_, opened⟩ := carriesBlock_halfPage.opened?
  cases opens.symm.trans opened
  exact absurd enough (by decide)

/-- What is read of half an entry is filled up. -/
theorem readEntries_fillsUp_halfPage :
    let steps := (readEntries EntryHead "mac" (.all 1 8)).transcript ScriptedReplies.answer
      (fun _ script => script) ⟨[halfPage], []⟩
    StaysCounted EntryHead "mac" (.all 1 8) steps ∧
      FillsUp EntryHead "mac" (.all 1 8) steps
        ((readEntries EntryHead "mac" (.all 1 8)).result ScriptedReplies.answer
          (fun _ script => script) ⟨[halfPage], []⟩) := by
  have sized : ¬ (Paging.all 1 8).Overflows := by decide
  have counted := (readEntries_course (η := EntryHead) ScriptedReplies.answer
    (fun _ script => script) "mac" sized ⟨[halfPage], []⟩).staysCounted sized (by decide)
  exact ⟨counted, readEntries_fillsUp ScriptedReplies.answer (fun _ script => script) "mac"
    (.all 1 8) ⟨[halfPage], []⟩ counted⟩

end NicScope
