/-
This file proves that reading a table ends, whatever cursors the device chooses. The
entry to ask for next is the one that the last reply names, and it is taken up only
if it comes after the one asked for; so the entries asked for increase strictly and
stay below the size of the table. A cursor that does not advance ends the reading. Of a
table whose bytes cannot be counted no entry is asked for.
-/

import NicScope.Proofs.Transfer.EntryReading
import NicScope.Transfer.Scripted

namespace NicScope

open Dialogue

variable {η : Type} [BlockHead η] {name : String} {paging : Paging} {index : UInt32}
  {run : EntryRun} {steps : List (UInt32 × Reply)} {result : Except Error EntryRun}

/-! ### The entries asked for -/

namespace EntryCourse

theorem head?_asked (course : EntryCourse η name paging index run steps result) :
    (steps.map Prod.fst).head? = if index < paging.entries then some index else none := by
  cases course with
  | finished beyond => rw [if_neg beyond]; rfl
  | rejected inside | brokenOff inside | alone inside | taken inside => rw [if_pos inside]; rfl

/-- Each entry after the first is the one that the reply before it names. -/
theorem asked_of_named (course : EntryCourse η name paging index run steps result) {k : Nat}
    {step later : UInt32 × Reply} (found : steps[k]? = some step)
    (next : steps[k + 1]? = some later) : later.1 = nextNamed η step.2 := by
  induction course generalizing k with
  | finished | rejected | brokenOff | alone => cases next
  | @taken index run reply behind result _ _ _ _ rest inductionHypothesis =>
    rw [List.getElem?_cons_succ] at next
    cases k with
    | zero =>
      cases found
      have first := rest.head?_asked
      rw [List.head?_map, List.head?_eq_getElem?, next, Option.map_some] at first
      split at first
      · exact Option.some.inj first
      · cases first
    | succ k => exact inductionHypothesis (List.getElem?_cons_succ ▸ found) next

/-- No entry is asked for that comes before the first one. -/
theorem index_le (course : EntryCourse η name paging index run steps result) :
    ∀ asked ∈ steps.map Prod.fst, index ≤ asked := by
  induction course with
  | finished => exact fun _ member => absurd member List.not_mem_nil
  | rejected | brokenOff | alone =>
    intro asked member
    rw [List.mem_singleton.mp member]
    exact UInt32.le_refl _
  | taken _ taken _ _ _ inductionHypothesis =>
    intro asked member
    rcases List.mem_cons.mp member with rfl | member
    · exact UInt32.le_refl _
    · exact UInt32.le_of_lt (UInt32.lt_of_lt_of_le taken.advances
        (inductionHypothesis asked member))

theorem increasing (course : EntryCourse η name paging index run steps result) :
    (steps.map Prod.fst).Pairwise (· < ·) := by
  induction course with
  | finished => exact .nil
  | rejected | brokenOff | alone => exact List.pairwise_singleton _ _
  | taken _ taken _ _ rest inductionHypothesis =>
    exact .cons (fun asked member => UInt32.lt_of_lt_of_le taken.advances
      (rest.index_le asked member)) inductionHypothesis

theorem asked_lt (course : EntryCourse η name paging index run steps result) :
    ∀ asked ∈ steps.map Prod.fst, asked < paging.entries := by
  induction course with
  | finished => exact fun _ member => absurd member List.not_mem_nil
  | rejected inside | brokenOff inside | alone inside =>
    intro asked member
    rwa [List.mem_singleton.mp member]
  | taken inside _ _ _ _ inductionHypothesis =>
    intro asked member
    rcases List.mem_cons.mp member with rfl | member
    · exact inside
    · exact inductionHypothesis asked member

/-- Every question leaves fewer entries to ask for. -/
theorem length_le_entries (course : EntryCourse η name paging index run steps result) :
    steps.length ≤ paging.entries.toNat - index.toNat := by
  induction course with
  | finished => exact Nat.zero_le _
  | rejected inside | brokenOff inside | alone inside =>
    exact Nat.sub_pos_of_lt (UInt32.lt_iff_toNat_lt.mp inside)
  | taken inside taken _ _ _ inductionHypothesis =>
    have bound := UInt32.lt_iff_toNat_lt.mp inside
    have advances := UInt32.lt_iff_toNat_lt.mp taken.advances
    rw [List.length_cons]
    omega

theorem length_le_one (course : EntryCourse η name paging index run steps result)
    (single : paging.single = true) : steps.length ≤ 1 := by
  cases course with
  | finished => exact Nat.zero_le 1
  | rejected | brokenOff | alone => exact Nat.le_refl 1
  | taken _ _ _ more => cases single.symm.trans more

theorem eq_of_beyond (course : EntryCourse η name paging index run steps result)
    (beyond : paging.entries ≤ index) : steps = [] ∧ result = .ok run := by
  cases course with
  | finished => exact ⟨rfl, rfl⟩
  | rejected inside | brokenOff inside | alone inside | taken inside =>
    exact absurd inside (UInt32.not_lt.mpr beyond)

end EntryCourse

/-! ### The whole reading -/

variable (η)

/-- What the questions of a reading are, each with its reply, and how it ends. -/
structure EntryCursor (name : String) (paging : Paging) (steps : List (UInt32 × Reply))
    (result : Except Error EntryRun) : Prop where
  /-- The first entry asked for is the first one wanted; none is asked for if none is wanted or
  the size of the table does not fit into 64 bits. -/
  begins : (steps.map Prod.fst).head? =
    if paging.start < paging.entries ∧ paging.Countable then some paging.start else none
  /-- Each entry after the first is the one that the reply before it names. -/
  follows : ∀ k step later, steps[k]? = some step → steps[k + 1]? = some later →
    later.1 = nextNamed η step.2
  increasing : (steps.map Prod.fst).Pairwise (· < ·)
  inside : ∀ asked ∈ steps.map Prod.fst, asked < paging.entries
  bounded : steps.length ≤ paging.entries.toNat - paging.start.toNat
  beyond : paging.entries ≤ paging.start → steps = [] ∧ result = .ok .empty
  alone : paging.single = true → steps.length ≤ 1
  /-- Whatever is asked, all replies before it were taken in. -/
  accepted : ∀ k, k < steps.length →
    ∃ before, EntryRun.acceptAll η name paging (steps.take k) .empty = .ok before
  /-- Taking the replies in, one after another, gives the result. -/
  ends : Retaken η name paging steps result
  /-- A block that fits but whose cursor does not advance ends the reading. -/
  stalled : ∀ k asked reply before, steps[k]? = some (asked, reply) →
    EntryRun.acceptAll η name paging (steps.take k) .empty = .ok before →
    Fits η (before.room paging) reply → nextNamed η reply ≤ asked →
    k + 1 = steps.length ∧ result = .error (.stalledEntry (nextNamed η reply) asked)
  within : ∀ after, result = .ok after → after.count ≤ paging.entries

variable {η}

/-- Where nothing is asked because of an overflow. -/
theorem EntryCursor.ofOverflows (overflows : paging.Overflows) :
    EntryCursor η name paging [] (.error .overflow) where
  begins := (if_neg fun wanted => overflows.2 wanted.2).symm
  follows := fun _ _ _ found => nomatch found
  increasing := .nil
  inside := fun _ member => absurd member List.not_mem_nil
  bounded := Nat.zero_le _
  beyond := fun beyond => absurd overflows.1 (UInt32.not_lt.mpr beyond)
  alone := fun _ => Nat.zero_le 1
  accepted := fun k inside => absurd inside (Nat.not_lt_zero k)
  ends := by
    rw [Retaken, if_pos overflows]
    exact ⟨rfl, rfl⟩
  stalled := fun _ _ _ _ found => nomatch found
  within := fun _ given => nomatch given

theorem EntryCourse.cursor (sized : ¬ paging.Overflows)
    (course : EntryCourse η name paging paging.start .empty steps result) :
    EntryCursor η name paging steps result where
  begins := by
    rw [course.head?_asked]
    refine if_congr ⟨fun inside => ⟨inside, ?_⟩, And.left⟩ rfl rfl
    exact Decidable.not_not.mp fun wide => sized ⟨inside, wide⟩
  follows := fun _ _ _ found next => course.asked_of_named found next
  increasing := course.increasing
  inside := course.asked_lt
  bounded := course.length_le_entries
  beyond := course.eq_of_beyond
  alone := course.length_le_one
  accepted := course.accepted
  ends := by rw [Retaken, if_neg sized, course.acceptAll_eq]
  stalled := fun _ _ _ _ found accepted fits behind =>
    course.ends found accepted (.stalled fits (UInt32.not_lt.mpr behind))
  within := fun _ given => count_le_of_acceptAll (course.acceptAll_eq.trans given) UInt32.zero_le

/-- Reading a table ends: its cursor only advances, and stays within the table. -/
theorem readEntries_terminates (η : Type) [BlockHead η] {σ : Type} (name : String)
    (paging : Paging) (fetch : UInt32 → σ → Reply × σ) (log : LogRecord → σ → σ) (state : σ) :
    EntryCursor η name paging ((readEntries η name paging).transcript fetch log state)
      ((readEntries η name paging).result fetch log state) := by
  by_cases overflows : paging.Overflows
  · obtain ⟨asked, ends⟩ := readEntries_of_overflows (η := η) fetch log name overflows state
    rw [asked, ends]
    exact .ofOverflows overflows
  · exact (readEntries_course fetch log name overflows state).cursor overflows

end NicScope
