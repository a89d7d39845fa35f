/-
This file settles how exactly the entries of a table are counted. Pages are added up
without wrapping, in a word that stays at the largest one; so the count is the sum of
what the pages declare as long as that sum has 32 bits, and then the bytes kept are
those of as many entries and a page that exceeds the table is rejected. The largest
word is never exceeded, so a table of that many entries cannot notice that a page
counts beyond it: there, and only there, the accounting can fail, unless the bytes of
the table cannot be counted either and so none are read.
-/

import Mathlib.Algebra.Ring.Nat
import NicScope.Proofs.Transfer.EntryCursor

namespace NicScope

open Dialogue

/-! ### Counting -/

variable (η : Type) [BlockHead η]

/-- The number of entries that replies declare, however large. -/
def entriesDeclared (steps : List (UInt32 × Reply)) : Nat :=
  (steps.map fun step => (entriesCounted η step.2).toNat).sum

variable {η} {name : String} {paging : Paging} {index : UInt32} {run after : EntryRun}
  {steps : List (UInt32 × Reply)} {result : Except Error EntryRun}

theorem entriesDeclared_cons (step : UInt32 × Reply) (later : List (UInt32 × Reply)) :
    entriesDeclared η (step :: later) =
      (entriesCounted η step.2).toNat + entriesDeclared η later := by
  rw [entriesDeclared, List.map_cons, List.sum_cons, entriesDeclared]

theorem entriesDeclared_append (first second : List (UInt32 × Reply)) :
    entriesDeclared η (first ++ second) =
      entriesDeclared η first + entriesDeclared η second := by
  rw [entriesDeclared, List.map_append, List.sum_append, entriesDeclared, entriesDeclared]

theorem entriesDeclared_lt_of_length_le_one (short : steps.length ≤ 1) :
    entriesDeclared η steps < UInt32.size := by
  match steps, short with
  | [], _ => exact Nat.zero_lt_succ _
  | [step], _ =>
    rw [entriesDeclared_cons]
    exact (entriesCounted η step.2).toNat_lt

/-- The count is the sum of what the replies declare, or the largest word. -/
theorem toNat_count_of_acceptAll
    (accepted : EntryRun.acceptAll η name paging steps run = .ok after) :
    after.count.toNat =
      min (run.count.toNat + entriesDeclared η steps) (UInt32.size - 1) := by
  induction steps generalizing run with
  | nil =>
    have bound := run.count.toNat_lt
    rw [← Except.ok.inj accepted, entriesDeclared, List.map_nil, List.sum_nil, Nat.add_zero]
    exact (Nat.min_eq_left (Nat.le_sub_one_of_lt bound)).symm
  | cons step later inductionHypothesis =>
    obtain ⟨_, rest⟩ := taken_of_acceptAll_cons accepted
    have counted : (run.extended η paging step.2).count.toNat = _ :=
      toNat_saturatingAdd run.count (entriesCounted η step.2)
    rw [inductionHypothesis rest, counted, entriesDeclared_cons]
    omega

/-- As long as the sum has 32 bits, the bytes kept are those of the entries counted. -/
theorem length_data_of_acceptAll
    (accepted : EntryRun.acceptAll η name paging steps run = .ok after)
    (aligned : run.data.length = run.count.toNat * paging.entrySize)
    (small : run.count.toNat + entriesDeclared η steps < UInt32.size) :
    after.data.length = after.count.toNat * paging.entrySize := by
  induction steps generalizing run with
  | nil => rwa [← Except.ok.inj accepted]
  | cons step later inductionHypothesis =>
    obtain ⟨_, rest⟩ := taken_of_acceptAll_cons accepted
    rw [entriesDeclared_cons] at small
    have counted : (run.extended η paging step.2).count.toNat =
        run.count.toNat + (entriesCounted η step.2).toNat := by
      rw [EntryRun.extended, EntryRun.countWith, toNat_saturatingAdd]
      omega
    refine inductionHypothesis rest ?_ (by omega)
    rw [counted, EntryRun.extended, EntryRun.length_place, Nat.add_mul]

/-- Two replies that are taken in one behind the other are counted together. -/
theorem toNat_countWith {reply : Reply}
    (accepted : EntryRun.acceptAll η name paging steps .empty = .ok run)
    (small : entriesDeclared η (steps ++ [(index, reply)]) < UInt32.size) :
    run.count.toNat + (entriesCounted η reply).toNat =
        entriesDeclared η (steps ++ [(index, reply)]) ∧
      (run.countWith η reply).toNat = entriesDeclared η (steps ++ [(index, reply)]) := by
  have sum := toNat_count_of_acceptAll accepted
  have start : EntryRun.empty.count.toNat = 0 := rfl
  rw [entriesDeclared_append, entriesDeclared_cons] at small ⊢
  have none : entriesDeclared η [] = 0 := rfl
  rw [EntryRun.countWith, toNat_saturatingAdd]
  dsimp only at small ⊢
  omega

/-! ### Exactness -/

variable (η)

/-- The accounting of a reading is exact: whenever replies have been taken in, what is
counted and kept is what they declare, within the table; and a page that fits and advances
but exceeds the table ends the reading. -/
structure ExactAccounting (name : String) (paging : Paging) (steps : List (UInt32 × Reply))
    (result : Except Error EntryRun) : Prop where
  /-- Taking the replies in, one after another, gives the result. -/
  ends : Retaken η name paging steps result
  count : ∀ k after, EntryRun.acceptAll η name paging (steps.take k) .empty = .ok after →
    after.count.toNat = entriesDeclared η (steps.take k)
  within : ∀ k after, EntryRun.acceptAll η name paging (steps.take k) .empty = .ok after →
    entriesDeclared η (steps.take k) ≤ paging.entries.toNat
  length : ∀ k after, EntryRun.acceptAll η name paging (steps.take k) .empty = .ok after →
    after.data.length = after.count.toNat * paging.entrySize
  overflow : ∀ k asked reply before, steps[k]? = some (asked, reply) →
    EntryRun.acceptAll η name paging (steps.take k) .empty = .ok before →
    Fits η (before.room paging) reply → asked < nextNamed η reply →
    paging.entries.toNat < entriesDeclared η (steps.take (k + 1)) →
    k + 1 = steps.length ∧
      result = .error (.entryOverflow (before.countWith η reply) asked paging.entries)

/-- No page passes the checks with which the entries declared no longer have 32 bits. -/
def StaysCounted (name : String) (paging : Paging) (steps : List (UInt32 × Reply)) : Prop :=
  ∀ k index reply before, steps[k]? = some (index, reply) →
    EntryRun.acceptAll η name paging (steps.take k) .empty = .ok before →
    Taken η paging index before reply → entriesDeclared η (steps.take (k + 1)) < UInt32.size

/-- A table of fewer entries than the largest word, or of which at most one page is read, or
whose bytes cannot be counted, so that none is. -/
def NeverSaturates (paging : Paging) : Prop :=
  paging.entries ≠ 0xffffffff ∨ paging.single = true ∨
    paging.entries.toNat ≤ paging.start.toNat + 1 ∨ ¬ paging.Countable

instance (paging : Paging) : Decidable (NeverSaturates paging) :=
  inferInstanceAs (Decidable (_ ∨ _ ∨ _ ∨ _))

variable {η}

theorem take_succ_of_found {step : UInt32 × Reply} {k : Nat} (found : steps[k]? = some step) :
    steps.take (k + 1) = steps.take k ++ [step] := by
  rw [List.take_add_one, found, Option.toList_some]

/-- So what is taken in never declares more entries than have 32 bits. -/
theorem StaysCounted.declared_lt (counted : StaysCounted η name paging steps) (k : Nat)
    (accepted : EntryRun.acceptAll η name paging (steps.take k) .empty = .ok after) :
    entriesDeclared η (steps.take k) < UInt32.size := by
  induction k generalizing after with
  | zero => exact Nat.zero_lt_succ _
  | succ k inductionHypothesis =>
    cases found : steps[k]? with
    | none =>
      rw [List.take_add_one, found, Option.toList_none, List.append_nil] at accepted ⊢
      exact inductionHypothesis accepted
    | some step =>
      obtain ⟨before, earlier, last⟩ :=
        exists_of_acceptAll_append (take_succ_of_found found ▸ accepted)
      exact counted k step.1 step.2 before found earlier (taken_of_acceptAll_cons last).1

theorem ExactAccounting.staysCounted
    (accounting : ExactAccounting η name paging steps result) :
    StaysCounted η name paging steps := by
  intro k index reply before found accepted taken
  refine Decidable.byContradiction fun beyond => ?_
  have exceeds : paging.entries.toNat < entriesDeclared η (steps.take (k + 1)) :=
    Nat.lt_of_lt_of_le paging.entries.toNat_lt (Nat.not_lt.mp beyond)
  obtain ⟨last, refused⟩ :=
    accounting.overflow k index reply before found accepted taken.fits taken.advances exceeds
  -- The page passes all checks, so it is not for its count that the reading ends.
  have further := acceptAll_take_succ found accepted
  have ends := accounting.ends
  rw [last, List.take_length] at further
  rw [Retaken] at ends
  split at ends
  · rw [ends.1] at found
    cases found
  · by_cases narrow : before.sizeWith η paging reply < UInt64.size
    · rw [acceptAll_cons_of_taken taken narrow, ends, refused] at further
      cases further
    · rw [acceptAll_cons_of_overflow taken narrow, ends, refused] at further
      cases further

/-- Where nothing is asked, nothing is counted. -/
theorem ExactAccounting.ofOverflows (overflows : paging.Overflows) :
    ExactAccounting η name paging [] (.error .overflow) where
  ends := by
    rw [Retaken, if_pos overflows]
    exact ⟨rfl, rfl⟩
  count := fun k after accepted => by
    rw [List.take_nil] at accepted ⊢
    rw [← Except.ok.inj accepted]
    rfl
  within := fun k _ _ => by
    rw [List.take_nil]
    exact Nat.zero_le _
  length := fun k after accepted => by
    rw [List.take_nil] at accepted
    rw [← Except.ok.inj accepted]
    exact (Nat.zero_mul _).symm
  overflow := fun _ _ _ _ found => nomatch found

/-- Where the sum stays within 32 bits the accounting of a course is exact. -/
theorem EntryCourse.exactAccounting (sized : ¬ paging.Overflows)
    (course : EntryCourse η name paging paging.start .empty steps result)
    (counted : StaysCounted η name paging steps) :
    ExactAccounting η name paging steps result := by
  have count (k : Nat) (after : EntryRun)
      (accepted : EntryRun.acceptAll η name paging (steps.take k) .empty = .ok after) :
      after.count.toNat = entriesDeclared η (steps.take k) := by
    have bound := counted.declared_lt k accepted
    have sum := toNat_count_of_acceptAll accepted
    have start : EntryRun.empty.count.toNat = 0 := rfl
    omega
  refine ⟨?_, count, ?_, ?_, ?_⟩
  · rw [Retaken, if_neg sized, course.acceptAll_eq]
  · intro k after accepted
    rw [← count k after accepted]
    exact UInt32.le_iff_toNat_le.mp (count_le_of_acceptAll accepted UInt32.zero_le)
  · intro k after accepted
    refine length_data_of_acceptAll accepted (Nat.zero_mul _).symm ?_
    have start : EntryRun.empty.count.toNat = 0 := rfl
    rw [start, Nat.zero_add]
    exact counted.declared_lt k accepted
  · intro k asked reply before found accepted fits advances exceeds
    -- Did the page pass the checks, the entries declared with it would be within the table.
    have tooMany : paging.entries < before.countWith η reply := by
      rw [← UInt32.not_le]
      intro small
      have narrow := counted k asked reply before found accepted ⟨fits, advances, small⟩
      rw [take_succ_of_found found] at narrow exceeds
      have sum := (toNat_countWith accepted narrow).2
      have within := UInt32.le_iff_toNat_le.mp small
      omega
    exact course.ends found accepted (.overflowing fits advances tooMany)

/-- A table that cannot be exhausted by counting stays counted. -/
theorem EntryCourse.staysCounted (sized : ¬ paging.Overflows)
    (course : EntryCourse η name paging paging.start .empty steps result)
    (never : NeverSaturates paging) : StaysCounted η name paging steps := by
  intro k index reply before found accepted taken
  have ofShort (short : steps.length ≤ 1) :
      entriesDeclared η (steps.take (k + 1)) < UInt32.size := by
    refine entriesDeclared_lt_of_length_le_one ?_
    rw [List.length_take]
    omega
  rcases never with small | single | last | uncountable
  · have sum := toNat_count_of_acceptAll accepted
    have within := UInt32.le_iff_toNat_le.mp taken.within
    have bound := paging.entries.toNat_lt
    have different : paging.entries.toNat ≠ 4294967295 :=
      fun same => small (UInt32.toNat_inj.mp same)
    have start : EntryRun.empty.count.toNat = 0 := rfl
    have none : entriesDeclared η [] = 0 := rfl
    rw [EntryRun.countWith, toNat_saturatingAdd] at within
    rw [take_succ_of_found found, entriesDeclared_append, entriesDeclared_cons]
    simp only [UInt32.size] at sum within ⊢
    omega
  · exact ofShort (course.length_le_one single)
  · have some := course.length_le_entries
    exact ofShort (by omega)
  · have beyond : ¬ paging.start < paging.entries := fun inside => sized ⟨inside, uncountable⟩
    rw [(course.eq_of_beyond (UInt32.not_lt.mp beyond)).1] at found
    cases found

/-! ### A device that counts too far -/

/-- A reply that counts entries but carries none of their bytes. -/
def emptyPage (next count : UInt32) : Reply :=
  .ok ⟨0, 0, [1, next, count]⟩

/-- Two pages that together declare one entry more than has 32 bits. -/
def overcounting (start : UInt32) : List (UInt32 × Reply) :=
  [(start, emptyPage (start + 1) 0xffffffff), (start + 1, emptyPage 0xffffffff 1)]

theorem carriesBlock_emptyPage (next count : UInt32) :
    CarriesBlock EntryHead [] (emptyPage next count) ⟨1, 0, 0, next, count⟩ :=
  ⟨_, [], rfl, rfl, rfl⟩

theorem nextNamed_emptyPage (next count : UInt32) :
    nextNamed EntryHead (emptyPage next count) = next :=
  (carriesBlock_emptyPage next count).nextNamed

/-- A table of as many entries as the largest word takes in whatever is counted. -/
theorem taken_emptyPage {next count : UInt32} (full : paging.entries = 0xffffffff)
    (advances : index < next) : Taken EntryHead paging index run (emptyPage next count) where
  fits := (carriesBlock_emptyPage next count).fits (Nat.zero_le _) (Nat.zero_le _)
  advances := by rwa [nextNamed_emptyPage]
  within := by
    rw [full, UInt32.le_iff_toNat_le, EntryRun.countWith, toNat_saturatingAdd]
    exact Nat.min_le_right _ _

theorem entriesDeclared_overcounting (start : UInt32) :
    entriesDeclared EntryHead (overcounting start) = UInt32.size := by
  simp only [overcounting, entriesDeclared_cons, (carriesBlock_emptyPage _ _).entriesCounted]
  rfl

section Overcounting

variable (name) (paging) (room : paging.start.toNat + 1 < paging.entries.toNat)

include room

theorem start_lt_succ : paging.start < paging.start + 1 := by
  have bound := paging.entries.toNat_lt
  rw [UInt32.lt_iff_toNat_lt, UInt32.toNat_add, UInt32.toNat_one, Nat.mod_eq_of_lt (by omega)]
  exact Nat.lt_succ_self _

theorem succ_start_lt : paging.start + 1 < paging.entries := by
  have bound := paging.entries.toNat_lt
  rw [UInt32.lt_iff_toNat_lt, UInt32.toNat_add, UInt32.toNat_one, Nat.mod_eq_of_lt (by omega)]
  exact room

variable (full : paging.entries = 0xffffffff)

include full

theorem taken_overcounting :
    Taken EntryHead paging paging.start .empty (emptyPage (paging.start + 1) 0xffffffff) ∧
      ∀ run, Taken EntryHead paging (paging.start + 1) run (emptyPage 0xffffffff 1) :=
  ⟨taken_emptyPage full (start_lt_succ paging room),
    fun _ => taken_emptyPage full (full ▸ succ_start_lt paging room)⟩

variable (countable : paging.Countable)

omit room in
include countable in
theorem narrow_overcounting (next : UInt32) :
    EntryRun.empty.sizeWith EntryHead paging (emptyPage next 0xffffffff) < UInt64.size := by
  refine EntryRun.sizeWith_lt EntryHead countable ?_
  rw [(carriesBlock_emptyPage _ _).entriesCounted, full]
  exact Nat.le_of_eq (Nat.zero_add _)

include countable

/-- Whether or not the bytes of the second page can be counted, it passes the checks. -/
theorem overcounting_course (more : paging.single = false) :
    ∃ result,
      EntryCourse EntryHead name paging paging.start .empty (overcounting paging.start) result := by
  obtain ⟨first, second⟩ := taken_overcounting paging room full
  have inside := succ_start_lt paging room
  obtain ⟨result, rest⟩ : ∃ result, EntryCourse EntryHead name paging (paging.start + 1)
      (EntryRun.empty.extended EntryHead paging (emptyPage (paging.start + 1) 0xffffffff))
      [(paging.start + 1, emptyPage 0xffffffff 1)] result := by
    by_cases narrow : (EntryRun.empty.extended EntryHead paging
        (emptyPage (paging.start + 1) 0xffffffff)).sizeWith EntryHead paging
          (emptyPage 0xffffffff 1) < UInt64.size
    · refine ⟨_, .taken inside (second _) narrow more (.finished ?_)⟩
      rw [nextNamed_emptyPage, full]
      exact UInt32.lt_irrefl _
    · exact ⟨_, .brokenOff inside (second _) narrow⟩
  exact ⟨result, .taken (UInt32.lt_trans (start_lt_succ paging room) inside) first
    (narrow_overcounting paging full countable _) more (by rwa [nextNamed_emptyPage])⟩

theorem not_exactAccounting_overcounting {result : Except Error EntryRun} :
    ¬ ExactAccounting EntryHead name paging (overcounting paging.start) result := by
  intro accounting
  obtain ⟨first, second⟩ := taken_overcounting paging room full
  have narrow := narrow_overcounting paging full countable paging.start
  have counted := accounting.staysCounted 1 _ _ _ rfl (acceptAll_cons_of_taken first narrow)
    (second _)
  exact absurd (entriesDeclared_overcounting paging.start) (Nat.ne_of_lt counted)

end Overcounting

/-! ### What the accounting of a reading is worth -/

/-- The accounting of a reading is exact if and only if what is taken in stays within 32 bits;
and it is exact against every device if and only if the table has fewer entries than the
largest word, or at most one page of it is read. -/
theorem readEntries_accounting (name : String) (paging : Paging) :
    (∀ (η : Type) [BlockHead η] {σ : Type} (fetch : UInt32 → σ → Reply × σ)
        (log : LogRecord → σ → σ) (state : σ),
      ExactAccounting η name paging ((readEntries η name paging).transcript fetch log state)
          ((readEntries η name paging).result fetch log state) ↔
        StaysCounted η name paging ((readEntries η name paging).transcript fetch log state)) ∧
    ((∀ (η : Type) [BlockHead η] {σ : Type} (fetch : UInt32 → σ → Reply × σ)
        (log : LogRecord → σ → σ) (state : σ),
      ExactAccounting η name paging ((readEntries η name paging).transcript fetch log state)
        ((readEntries η name paging).result fetch log state)) ↔ NeverSaturates paging) := by
  constructor
  · intro η _ σ fetch log state
    refine ⟨ExactAccounting.staysCounted, fun counted => ?_⟩
    by_cases overflows : paging.Overflows
    · obtain ⟨asked, ends⟩ := readEntries_of_overflows (η := η) fetch log name overflows state
      rw [asked, ends]
      exact .ofOverflows overflows
    · exact (readEntries_course fetch log name overflows state).exactAccounting overflows counted
  · constructor
    · intro always
      refine Decidable.byContradiction fun saturates => ?_
      simp only [NeverSaturates, not_or, Decidable.not_not, Bool.not_eq_true, Nat.not_le]
        at saturates
      obtain ⟨full, more, room, countable⟩ := saturates
      obtain ⟨result, course⟩ := overcounting_course name paging room full countable more
      have accounting := always EntryHead ScriptedReplies.answer (fun _ script => script)
        ⟨(overcounting paging.start).map Prod.snd, []⟩
      have taken := readEntriesFrom_of_course ScriptedReplies.answer (fun _ script => script)
        countable course ⟨(overcounting paging.start).map Prod.snd, []⟩ rfl
      rw [readEntries, taken.1] at accounting
      exact not_exactAccounting_overcounting name paging room full countable accounting
    · intro never η _ σ fetch log state
      by_cases overflows : paging.Overflows
      · obtain ⟨asked, ends⟩ := readEntries_of_overflows (η := η) fetch log name overflows state
        rw [asked, ends]
        exact .ofOverflows overflows
      · have course := readEntries_course (η := η) fetch log name overflows state
        exact course.exactAccounting overflows (course.staysCounted overflows never)

/-- Where a table has as many entries as the largest word, a page that counts beyond it is
taken in and its entry is lost. -/
theorem readEntries_overcounted :
    (readEntries EntryHead "mac" (.all 0xffffffff 0)).transcript ScriptedReplies.answer
        (fun _ script => script) ⟨[emptyPage 1 0xffffffff, emptyPage 0xffffffff 1], []⟩ =
      overcounting 0 ∧
    (readEntries EntryHead "mac" (.all 0xffffffff 0)).result ScriptedReplies.answer
        (fun _ script => script) ⟨[emptyPage 1 0xffffffff, emptyPage 0xffffffff 1], []⟩ =
      .ok ⟨[], 0xffffffff⟩ ∧
    entriesDeclared EntryHead (overcounting 0) = 0x100000000 ∧
    ¬ ExactAccounting EntryHead "mac" (.all 0xffffffff 0) (overcounting 0)
      (.ok ⟨[], 0xffffffff⟩) := by
  have room : (0 : UInt32).toNat + 1 < (0xffffffff : UInt32).toNat := by decide
  have countable : (Paging.all 0xffffffff 0).Countable := by decide
  obtain ⟨first, second⟩ := taken_overcounting (.all 0xffffffff 0) room rfl
  have course : EntryCourse EntryHead "mac" (.all 0xffffffff 0) 0 .empty (overcounting 0)
      (.ok ⟨[], 0xffffffff⟩) := by
    refine .taken (by decide) first (by decide) rfl ?_
    rw [nextNamed_emptyPage]
    refine .taken (by decide) (second _) (by decide) rfl (.finished ?_)
    rw [nextNamed_emptyPage]
    exact UInt32.lt_irrefl _
  obtain ⟨asked, ends⟩ := readEntriesFrom_of_course ScriptedReplies.answer
    (fun _ script => script) countable course
    ⟨[emptyPage 1 0xffffffff, emptyPage 0xffffffff 1], []⟩ rfl
  exact ⟨asked, ends, entriesDeclared_overcounting 0,
    not_exactAccounting_overcounting "mac" (.all 0xffffffff 0) room rfl countable⟩

end NicScope
