/-
This file proves what reading a table asks and gives, page by page. A page is taken
in when its block fits, it names a later entry and the entries it counts stay within
the table; otherwise it is rejected for one reason, which ends the reading. So every
reading takes a course that its questions and replies alone describe, and taking the
replies in again one after another gives its result. Sizes are numbers of 64 bits: a
table that is too large for them is not read at all, and a page that makes what is
kept too large breaks the reading off.
-/

import NicScope.Proofs.Transfer.BlockReply
import NicScope.Proofs.Transfer.Transcript
import NicScope.Transfer.Entries

namespace NicScope

open Dialogue

/-! ### Counts and places -/

theorem toNat_saturatingAdd (first second : UInt32) :
    (Bits.saturatingAdd first second).toNat =
      min (first.toNat + second.toNat) (UInt32.size - 1) :=
  UInt32.toNat_ofNat_of_lt' (Nat.lt_of_le_of_lt (Nat.min_le_right _ _) (by decide))

namespace EntryRun

theorem length_place (data : Bytes) (start size : Nat) (payload : Bytes) :
    (place data start size payload).length = start + size := by
  have room := Bytes.length_resize (start + size) data
  have kept := List.length_take_le size payload
  simp only [place, List.length_append, List.length_take, List.length_drop, room] at kept ⊢
  omega

/-- Bytes that are placed behind what is kept follow it; what follows them is dropped. -/
theorem place_append (data kept padding : Bytes) :
    place data data.length kept.length (kept ++ padding) = data ++ kept := by
  have whole : data.take (data.length + kept.length) = data :=
    List.take_of_length_le (Nat.le_add_right _ _)
  have room := Bytes.length_resize (data.length + kept.length) data
  rw [place, List.take_left]
  rw [List.drop_of_length_le (Nat.le_of_eq room), List.append_nil, Bytes.resize, whole,
    List.take_left]

end EntryRun

/-! ### Sizes -/

namespace Paging

/-- The size of the whole table fits into 64 bits. -/
def Countable (paging : Paging) : Prop :=
  paging.entries.toNat * paging.entrySize < UInt64.size

/-- There are entries to ask for, but the size of the table does not fit into 64 bits. -/
def Overflows (paging : Paging) : Prop :=
  paging.start < paging.entries ∧ ¬ paging.Countable

instance (paging : Paging) : Decidable paging.Countable :=
  inferInstanceAs (Decidable (_ < _))

instance (paging : Paging) : Decidable paging.Overflows :=
  inferInstanceAs (Decidable (_ ∧ _))

/-- So does what any part of it has room for. -/
theorem Countable.room_lt {paging : Paging} (countable : paging.Countable) (run : EntryRun) :
    run.room paging < UInt64.size :=
  Nat.lt_of_le_of_lt (Nat.mul_le_mul_right _ (Nat.sub_le _ _)) countable

end Paging

variable (η : Type) [BlockHead η]

/-! ### One page -/

namespace EntryRun

/-- The entries counted once a reply is taken in. -/
def countWith (run : EntryRun) (reply : Reply) : UInt32 :=
  Bits.saturatingAdd run.count (entriesCounted η reply)

/-- The bytes kept once a reply is taken in. -/
def sizeWith (paging : Paging) (run : EntryRun) (reply : Reply) : Nat :=
  run.count.toNat * paging.entrySize + (entriesCounted η reply).toNat * paging.entrySize

/-- As many entries as a countable table has are kept without an overflow. -/
theorem sizeWith_lt {paging : Paging} (countable : paging.Countable) {run : EntryRun}
    {reply : Reply}
    (within : run.count.toNat + (entriesCounted η reply).toNat ≤ paging.entries.toNat) :
    run.sizeWith η paging reply < UInt64.size := by
  rw [sizeWith, ← Nat.add_mul]
  exact Nat.lt_of_le_of_lt (Nat.mul_le_mul_right _ within) countable

/-- The entries read once a reply is taken in. -/
def extended (paging : Paging) (run : EntryRun) (reply : Reply) : EntryRun :=
  ⟨place run.data (run.count.toNat * paging.entrySize)
      ((entriesCounted η reply).toNat * paging.entrySize) (payloadOf η reply),
    run.countWith η reply⟩

/-- Takes in the replies to questions for entries, one after another. -/
def acceptAll (name : String) (paging : Paging) :
    List (UInt32 × Reply) → EntryRun → Except Error EntryRun
  | [], run => .ok run
  | (index, reply) :: later, run =>
    match reply.bind (accept η name paging index (run.room paging) run) with
    | .error cause => .error cause
    | .ok (run, _) => acceptAll name paging later run

end EntryRun

/-- A reply to the question for the entry `index` that is taken in. -/
structure Taken (paging : Paging) (index : UInt32) (run : EntryRun) (reply : Reply) : Prop where
  fits : Fits η (run.room paging) reply
  advances : index < nextNamed η reply
  within : run.countWith η reply ≤ paging.entries

/-- Why a reply to the question for the entry `index` is not taken in. -/
inductive Rejected (name : String) (paging : Paging) (index : UInt32) (run : EntryRun) :
    Reply → Error → Prop
  | refused {reply : Reply} {cause : Error}
      (reason : Refused η name (run.room paging) reply cause) :
      Rejected name paging index run reply cause
  | stalled {reply : Reply} (fits : Fits η (run.room paging) reply)
      (behind : ¬ index < nextNamed η reply) :
      Rejected name paging index run reply (.stalledEntry (nextNamed η reply) index)
  | overflowing {reply : Reply} (fits : Fits η (run.room paging) reply)
      (advances : index < nextNamed η reply)
      (exceeds : paging.entries < run.countWith η reply) :
      Rejected name paging index run reply
        (.entryOverflow (run.countWith η reply) index paging.entries)

variable {η} {name : String} {paging : Paging} {index : UInt32} {run : EntryRun} {reply : Reply}
  {cause : Error}

theorem bind_accept_of_refused (reason : Refused η name (run.room paging) reply cause) :
    reply.bind (EntryRun.accept η name paging index (run.room paging) run) = .error cause := by
  have taken := blockPayload_of_refused reason
  cases reply with
  | error failure => exact congrArg Except.error (Except.error.inj taken)
  | ok response =>
    simp only [Except.bind] at taken ⊢
    rw [EntryRun.accept, taken]

/-- What becomes of a reply that fits is decided by its cursor and its count, and in the end by
the size of what would be kept. -/
theorem bind_accept_of_fits (fits : Fits η (run.room paging) reply) :
    reply.bind (EntryRun.accept η name paging index (run.room paging) run) =
      if advances : index < nextNamed η reply then
        if paging.entries < run.countWith η reply then
          .error (.entryOverflow (run.countWith η reply) index paging.entries)
        else if run.sizeWith η paging reply < UInt64.size then
          .ok (run.extended η paging reply, ⟨nextNamed η reply, advances⟩)
        else .error .overflow
      else .error (.stalledEntry (nextNamed η reply) index) := by
  obtain ⟨head, rest, opens, taken⟩ := blockPayload_of_fits name fits
  obtain ⟨response, rfl, _⟩ := decodeHead_of_opened? opens
  simp only [Except.bind] at taken ⊢
  simp only [EntryRun.accept, taken, EntryRun.extended, EntryRun.countWith, EntryRun.sizeWith,
    nextNamed_of_opened? opens, entriesCounted_of_opened? opens, checkedBelow, GT.gt]
  by_cases narrow : run.count.toNat * paging.entrySize +
      (BlockHead.entryCount head).toNat * paging.entrySize < UInt64.size
  · simp only [if_pos narrow]
  · simp only [if_neg narrow]

theorem bind_accept_of_taken (taken : Taken η paging index run reply)
    (narrow : run.sizeWith η paging reply < UInt64.size) :
    reply.bind (EntryRun.accept η name paging index (run.room paging) run) =
      .ok (run.extended η paging reply, ⟨nextNamed η reply, taken.advances⟩) := by
  rw [bind_accept_of_fits taken.fits, dif_pos taken.advances,
    if_neg (UInt32.not_lt.mpr taken.within), if_pos narrow]

theorem bind_accept_of_overflow (taken : Taken η paging index run reply)
    (wide : ¬ run.sizeWith η paging reply < UInt64.size) :
    reply.bind (EntryRun.accept η name paging index (run.room paging) run) = .error .overflow := by
  rw [bind_accept_of_fits taken.fits, dif_pos taken.advances,
    if_neg (UInt32.not_lt.mpr taken.within), if_neg wide]

theorem bind_accept_of_rejected (rejected : Rejected η name paging index run reply cause) :
    reply.bind (EntryRun.accept η name paging index (run.room paging) run) = .error cause := by
  cases rejected with
  | refused reason => exact bind_accept_of_refused reason
  | stalled fits behind => rw [bind_accept_of_fits fits, dif_neg behind]
  | overflowing fits advances exceeds =>
    rw [bind_accept_of_fits fits, dif_pos advances, if_pos exceeds]

/-- Every reply is to be taken in or rejected. -/
theorem taken_or_rejected (name : String) (paging : Paging) (index : UInt32) (run : EntryRun)
    (reply : Reply) :
    Taken η paging index run reply ∨ ∃ cause, Rejected η name paging index run reply cause := by
  rcases fits_or_refused (η := η) name (run.room paging) reply with fits | ⟨cause, refused⟩
  · by_cases advances : index < nextNamed η reply
    · by_cases exceeds : paging.entries < run.countWith η reply
      · exact .inr ⟨_, .overflowing fits advances exceeds⟩
      · exact .inl ⟨fits, advances, UInt32.not_lt.mp exceeds⟩
    · exact .inr ⟨_, .stalled fits advances⟩
  · exact .inr ⟨cause, .refused refused⟩

/-! ### Pages one after another -/

theorem acceptAll_cons_of_taken {later : List (UInt32 × Reply)}
    (taken : Taken η paging index run reply)
    (narrow : run.sizeWith η paging reply < UInt64.size) :
    EntryRun.acceptAll η name paging ((index, reply) :: later) run =
      EntryRun.acceptAll η name paging later (run.extended η paging reply) := by
  rw [EntryRun.acceptAll, bind_accept_of_taken taken narrow]

theorem acceptAll_cons_of_overflow {later : List (UInt32 × Reply)}
    (taken : Taken η paging index run reply)
    (wide : ¬ run.sizeWith η paging reply < UInt64.size) :
    EntryRun.acceptAll η name paging ((index, reply) :: later) run = .error .overflow := by
  rw [EntryRun.acceptAll, bind_accept_of_overflow taken wide]

theorem acceptAll_cons_of_rejected {later : List (UInt32 × Reply)}
    (rejected : Rejected η name paging index run reply cause) :
    EntryRun.acceptAll η name paging ((index, reply) :: later) run = .error cause := by
  rw [EntryRun.acceptAll, bind_accept_of_rejected rejected]

/-- Where all replies are taken in, so is the first one. -/
theorem taken_of_acceptAll_cons {later : List (UInt32 × Reply)} {after : EntryRun}
    (accepted : EntryRun.acceptAll η name paging ((index, reply) :: later) run = .ok after) :
    Taken η paging index run reply ∧
      EntryRun.acceptAll η name paging later (run.extended η paging reply) = .ok after := by
  rcases taken_or_rejected (η := η) name paging index run reply with taken | ⟨cause, rejected⟩
  · by_cases narrow : run.sizeWith η paging reply < UInt64.size
    · exact ⟨taken, (acceptAll_cons_of_taken taken narrow).symm.trans accepted⟩
    · cases (acceptAll_cons_of_overflow taken narrow).symm.trans accepted
  · cases (acceptAll_cons_of_rejected rejected).symm.trans accepted

theorem acceptAll_append {first second : List (UInt32 × Reply)} {middle : EntryRun}
    (accepted : EntryRun.acceptAll η name paging first run = .ok middle) :
    EntryRun.acceptAll η name paging (first ++ second) run =
      EntryRun.acceptAll η name paging second middle := by
  induction first generalizing run with
  | nil => rw [List.nil_append, Except.ok.inj accepted]
  | cons step later inductionHypothesis =>
    rw [EntryRun.acceptAll] at accepted
    rw [List.cons_append, EntryRun.acceptAll]
    split at accepted
    next => cases accepted
    next run next _ => exact inductionHypothesis accepted

/-- What is taken in whole is taken in part by part. -/
theorem exists_of_acceptAll_append {first second : List (UInt32 × Reply)} {after : EntryRun}
    (accepted : EntryRun.acceptAll η name paging (first ++ second) run = .ok after) :
    ∃ middle, EntryRun.acceptAll η name paging first run = .ok middle ∧
      EntryRun.acceptAll η name paging second middle = .ok after := by
  cases taken : EntryRun.acceptAll η name paging first run with
  | ok middle => exact ⟨middle, rfl, (acceptAll_append taken).symm.trans accepted⟩
  | error cause =>
    induction first generalizing run with
    | nil => cases taken
    | cons step later inductionHypothesis =>
      rw [List.cons_append, EntryRun.acceptAll] at accepted
      rw [EntryRun.acceptAll] at taken
      split at taken
      next failed =>
        rw [failed] at accepted
        cases accepted
      next middle next given =>
        rw [given] at accepted
        exact inductionHypothesis accepted taken

/-- No more entries are counted than the table has. -/
theorem count_le_of_acceptAll {steps : List (UInt32 × Reply)} {after : EntryRun}
    (accepted : EntryRun.acceptAll η name paging steps run = .ok after)
    (within : run.count ≤ paging.entries) : after.count ≤ paging.entries := by
  induction steps generalizing run with
  | nil => rwa [← Except.ok.inj accepted]
  | cons step later inductionHypothesis =>
    obtain ⟨taken, rest⟩ := taken_of_acceptAll_cons accepted
    exact inductionHypothesis rest taken.within

theorem acceptAll_take_succ {steps : List (UInt32 × Reply)} {k : Nat} {before : EntryRun}
    {step : UInt32 × Reply} (found : steps[k]? = some step)
    (accepted : EntryRun.acceptAll η name paging (steps.take k) run = .ok before) :
    EntryRun.acceptAll η name paging (steps.take (k + 1)) run =
      EntryRun.acceptAll η name paging [step] before := by
  rw [List.take_add_one, found, Option.toList_some, acceptAll_append accepted]

/-! ### Courses -/

variable (η)

/-- The courses that reading on from an entry can take: the steps, each a question with its
reply, and the result. -/
inductive EntryCourse (name : String) (paging : Paging) :
    UInt32 → EntryRun → List (UInt32 × Reply) → Except Error EntryRun → Prop
  | finished {index : UInt32} {run : EntryRun} (beyond : ¬ index < paging.entries) :
      EntryCourse name paging index run [] (.ok run)
  | rejected {index : UInt32} {run : EntryRun} {reply : Reply} {cause : Error}
      (inside : index < paging.entries)
      (reason : Rejected η name paging index run reply cause) :
      EntryCourse name paging index run [(index, reply)] (.error cause)
  | brokenOff {index : UInt32} {run : EntryRun} {reply : Reply}
      (inside : index < paging.entries) (taken : Taken η paging index run reply)
      (wide : ¬ run.sizeWith η paging reply < UInt64.size) :
      EntryCourse name paging index run [(index, reply)] (.error .overflow)
  | alone {index : UInt32} {run : EntryRun} {reply : Reply} (inside : index < paging.entries)
      (taken : Taken η paging index run reply)
      (narrow : run.sizeWith η paging reply < UInt64.size) (single : paging.single = true) :
      EntryCourse name paging index run [(index, reply)] (.ok (run.extended η paging reply))
  | taken {index : UInt32} {run : EntryRun} {reply : Reply} {later : List (UInt32 × Reply)}
      {result : Except Error EntryRun} (inside : index < paging.entries)
      (taken : Taken η paging index run reply)
      (narrow : run.sizeWith η paging reply < UInt64.size) (more : paging.single = false)
      (rest : EntryCourse name paging (nextNamed η reply) (run.extended η paging reply) later
        result) :
      EntryCourse name paging index run ((index, reply) :: later) result

variable {η} {steps : List (UInt32 × Reply)} {result : Except Error EntryRun}

namespace EntryCourse

/-- Taking the replies in again gives the result. -/
theorem acceptAll_eq (course : EntryCourse η name paging index run steps result) :
    EntryRun.acceptAll η name paging steps run = result := by
  induction course with
  | finished => rfl
  | rejected _ reason => exact acceptAll_cons_of_rejected reason
  | brokenOff _ taken wide => exact acceptAll_cons_of_overflow taken wide
  | alone _ taken narrow _ => exact acceptAll_cons_of_taken taken narrow
  | taken _ taken narrow _ _ inductionHypothesis =>
    rw [acceptAll_cons_of_taken taken narrow, inductionHypothesis]

/-- Whatever is asked, all replies before it were taken in. -/
theorem accepted (course : EntryCourse η name paging index run steps result) :
    ∀ k, k < steps.length →
      ∃ before, EntryRun.acceptAll η name paging (steps.take k) run = .ok before := by
  induction course with
  | finished => exact fun k inside => absurd inside (Nat.not_lt_zero k)
  | @rejected index run reply cause | @brokenOff index run reply | @alone index run reply =>
    intro k inside
    obtain rfl : k = 0 := Nat.lt_one_iff.mp inside
    exact ⟨run, rfl⟩
  | @taken index run reply later result _ taken narrow _ _ inductionHypothesis =>
    intro k inside
    cases k with
    | zero => exact ⟨run, rfl⟩
    | succ k =>
      rw [List.take_succ_cons, acceptAll_cons_of_taken taken narrow]
      exact inductionHypothesis k (Nat.lt_of_succ_lt_succ inside)

/-- A rejected reply is the last one, and the reason for it is the result. -/
theorem ends (course : EntryCourse η name paging index run steps result) {k : Nat}
    {asked : UInt32} {before : EntryRun} (found : steps[k]? = some (asked, reply))
    (accepted : EntryRun.acceptAll η name paging (steps.take k) run = .ok before)
    (rejected : Rejected η name paging asked before reply cause) :
    k + 1 = steps.length ∧ result = .error cause := by
  have failed : EntryRun.acceptAll η name paging (steps.take (k + 1)) run = .error cause := by
    rw [acceptAll_take_succ found accepted, acceptAll_cons_of_rejected rejected]
  have last : k + 1 = steps.length := by
    have inside := (List.getElem?_eq_some_iff.mp found).1
    rcases Nat.lt_or_eq_of_le inside with more | last
    · obtain ⟨_, fine⟩ := course.accepted (k + 1) more
      cases failed.symm.trans fine
    · exact last
  rw [last, List.take_length, course.acceptAll_eq] at failed
  exact ⟨last, failed⟩

end EntryCourse

variable {σ : Type} (fetch : UInt32 → σ → Reply × σ) (log : LogRecord → σ → σ)

/-- However it is answered, reading on takes one of the courses, if the size of the table can be
calculated. -/
theorem readEntriesFrom_course (name : String) {paging : Paging} (countable : paging.Countable)
    (index : UInt32) (run : EntryRun) (state : σ) :
    EntryCourse η name paging index run
      ((readEntriesFrom η name paging index run).transcript fetch log state)
      ((readEntriesFrom η name paging index run).result fetch log state) := by
  induction remaining : paging.entries.toNat - index.toNat using Nat.strongRecOn
    generalizing index run state with
  | ind remaining inductionHypothesis =>
    rw [readEntriesFrom]
    split
    next inside =>
      rw [checkedBelow, if_pos (countable.room_lt run)]
      dsimp only
      rw [transcript_ask, result_ask]
      rcases taken_or_rejected (η := η) name paging index run (fetch index state).1 with
        taken | ⟨cause, rejected⟩
      · by_cases narrow : run.sizeWith η paging (fetch index state).1 < UInt64.size
        · rw [bind_accept_of_taken taken narrow]
          dsimp only
          split
          next single => exact .alone inside taken narrow single
          next more =>
            refine .taken inside taken narrow (eq_false_of_ne_true more)
              (inductionHypothesis _ ?_ _ _ _ rfl)
            have advances := UInt32.lt_iff_toNat_lt.mp taken.advances
            have bound := UInt32.lt_iff_toNat_lt.mp inside
            omega
        · rw [bind_accept_of_overflow taken narrow]
          exact .brokenOff inside taken narrow
      · rw [bind_accept_of_rejected rejected]
        exact .rejected inside rejected
    next beyond => exact .finished beyond

/-- The size of a table that overflows is calculated before anything is asked. -/
theorem readEntries_of_overflows (name : String) {paging : Paging} (overflows : paging.Overflows)
    (state : σ) :
    (readEntries η name paging).transcript fetch log state = [] ∧
      (readEntries η name paging).result fetch log state = .error .overflow := by
  have wide : ¬ EntryRun.empty.room paging < UInt64.size := overflows.2
  rw [readEntries, readEntriesFrom, dif_pos overflows.1, checkedBelow, if_neg wide]
  exact ⟨rfl, rfl⟩

/-- Every other table is read in one of the courses. -/
theorem readEntries_course (name : String) {paging : Paging} (sized : ¬ paging.Overflows)
    (state : σ) :
    EntryCourse η name paging paging.start .empty
      ((readEntries η name paging).transcript fetch log state)
      ((readEntries η name paging).result fetch log state) := by
  by_cases inside : paging.start < paging.entries
  · have countable : paging.Countable :=
      Decidable.not_not.mp fun wide => sized ⟨inside, wide⟩
    exact readEntriesFrom_course fetch log name countable paging.start .empty state
  · rw [readEntries, readEntriesFrom, dif_neg inside]
    exact .finished inside

/-- How a reading ends: with what taking the replies in again gives, unless the size of the
table overflows, before anything is asked. -/
def Retaken (η : Type) [BlockHead η] (name : String) (paging : Paging)
    (steps : List (UInt32 × Reply)) (result : Except Error EntryRun) : Prop :=
  if paging.Overflows then steps = [] ∧ result = .error .overflow
  else EntryRun.acceptAll η name paging steps .empty = result

/-- A course whose questions are answered as it says is the one that is taken. -/
theorem readEntriesFrom_of_course (countable : paging.Countable)
    (course : EntryCourse η name paging index run steps result) (state : σ)
    (answered : answersTo fetch (steps.map Prod.fst) state = steps.map Prod.snd) :
    (readEntriesFrom η name paging index run).transcript fetch log state = steps ∧
      (readEntriesFrom η name paging index run).result fetch log state = result := by
  induction course generalizing state with
  | finished beyond =>
    rw [readEntriesFrom, dif_neg beyond]
    exact ⟨rfl, rfl⟩
  | @rejected _ run _ _ inside reason =>
    obtain ⟨given, _⟩ := List.cons.inj answered
    rw [readEntriesFrom, dif_pos inside, checkedBelow, if_pos (countable.room_lt run)]
    dsimp only
    rw [transcript_ask, result_ask, given, bind_accept_of_rejected reason]
    exact ⟨rfl, rfl⟩
  | @brokenOff _ run _ inside taken wide =>
    obtain ⟨given, _⟩ := List.cons.inj answered
    rw [readEntriesFrom, dif_pos inside, checkedBelow, if_pos (countable.room_lt run)]
    dsimp only
    rw [transcript_ask, result_ask, given, bind_accept_of_overflow taken wide]
    exact ⟨rfl, rfl⟩
  | @alone _ run _ inside taken narrow single =>
    obtain ⟨given, _⟩ := List.cons.inj answered
    rw [readEntriesFrom, dif_pos inside, checkedBelow, if_pos (countable.room_lt run)]
    dsimp only
    rw [transcript_ask, result_ask, given, bind_accept_of_taken taken narrow]
    simp only [single, if_true]
    exact ⟨rfl, rfl⟩
  | @taken _ run _ _ _ inside taken narrow more _ inductionHypothesis =>
    obtain ⟨given, later⟩ := List.cons.inj answered
    obtain ⟨asked, ends⟩ := inductionHypothesis _ later
    rw [readEntriesFrom, dif_pos inside, checkedBelow, if_pos (countable.room_lt run)]
    dsimp only
    rw [transcript_ask, result_ask, given, bind_accept_of_taken taken narrow]
    simp only [more, Bool.false_eq_true, if_false, asked, ends, and_self]

end NicScope
