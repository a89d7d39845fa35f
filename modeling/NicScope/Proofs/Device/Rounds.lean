/-
This file says what the accesses of a request tell: what was read and written where, which
accesses belong to which round, and what the looks at the completion status of a round come
to. Whatever course a request takes, its rounds are inside the window, and each of them is
looked at until its status is set or no look is left.
-/

import NicScope.Proofs.Device.RequestCourse

namespace NicScope

namespace Access

/-! ### What accesses tell -/

/-- Whether an access is the write that names a round. -/
def namesRound : Access → Bool
  | read _ _ => false
  | write register _ => register == Register.round

/-- A word of a response that was read. -/
def wordRead? : Access → Option UInt32
  | read register value =>
    if Register.responseData ≤ register ∧ register < Register.responseData + wordsPerRound then
      some value
    else none
  | write _ _ => none

/-- What was read at a register. -/
def valuesRead (register : Nat) (accesses : List Access) : List UInt32 :=
  accesses.filterMap (readAt? register)

/-- What was written to a register. -/
def valuesWritten (register : Nat) (accesses : List Access) : List UInt32 :=
  accesses.filterMap (writtenAt? register)

/-- The words of a response that were read. -/
def wordsRead (accesses : List Access) : List UInt32 :=
  accesses.filterMap wordRead?

/-- The accesses of each round, which are those behind the write that names it. -/
def roundsOf (accesses : List Access) : List (List Access) :=
  (accesses.splitOnP namesRound).tail

/-- The completion statuses that were looked at. -/
def looks (accesses : List Access) : List Completion :=
  (valuesRead Register.completion accesses).map Completion.ofCode

/-- The first completion status that is set, or that the host has waited too long. -/
def status (accesses : List Access) : Completion :=
  ((looks accesses).find? fun status => status ≠ .pending).getD .hostTimeout

/-- An access inside the window that does not begin a round. -/
def Plain (access : Access) : Prop :=
  access.register < Register.count ∧ access.namesRound = false

end Access

open Access

/-! ### Accesses in a row -/

theorem valuesRead_append (register : Nat) (first second : List Access) :
    valuesRead register (first ++ second) =
      valuesRead register first ++ valuesRead register second :=
  List.filterMap_append

theorem valuesWritten_append (register : Nat) (first second : List Access) :
    valuesWritten register (first ++ second) =
      valuesWritten register first ++ valuesWritten register second :=
  List.filterMap_append

theorem wordsRead_append (first second : List Access) :
    wordsRead (first ++ second) = wordsRead first ++ wordsRead second :=
  List.filterMap_append

theorem exists_of_mem_writesFrom {register : Nat} {values : List UInt32} {access : Access}
    (member : access ∈ writesFrom register values) :
    ∃ place value, access = .write place value ∧ register ≤ place ∧
      place < register + values.length := by
  induction values generalizing register with
  | nil => cases member
  | cons value rest inductionHypothesis =>
    rcases List.mem_cons.mp member with rfl | later
    · exact ⟨register, value, rfl, Nat.le_refl _, Nat.lt_add_of_pos_right (Nat.succ_pos _)⟩
    · obtain ⟨place, value, written, above, below⟩ := inductionHypothesis later
      rw [List.length_cons]
      exact ⟨place, value, written, by omega, by omega⟩

theorem exists_of_mem_readsFrom {register : Nat} {values : List UInt32} {access : Access}
    (member : access ∈ readsFrom register values) :
    ∃ place value, access = .read place value ∧ register ≤ place ∧
      place < register + values.length := by
  induction values generalizing register with
  | nil => cases member
  | cons value rest inductionHypothesis =>
    rcases List.mem_cons.mp member with rfl | later
    · exact ⟨register, value, rfl, Nat.le_refl _, Nat.lt_add_of_pos_right (Nat.succ_pos _)⟩
    · obtain ⟨place, value, read, above, below⟩ := inductionHypothesis later
      rw [List.length_cons]
      exact ⟨place, value, read, by omega, by omega⟩

/-- Reads of consecutive registers read nothing at a register that is not among them. -/
theorem valuesRead_readsFrom_of_outside {register start : Nat} {values : List UInt32}
    (outside : register < start ∨ start + values.length ≤ register) :
    valuesRead register (readsFrom start values) = [] := by
  refine List.filterMap_eq_nil_iff.mpr fun access member => ?_
  obtain ⟨place, value, rfl, above, below⟩ := exists_of_mem_readsFrom member
  exact if_neg (by omega)

theorem wordsRead_readsFrom {start : Nat} {values : List UInt32}
    (above : Register.responseData ≤ start)
    (below : start + values.length ≤ Register.responseData + wordsPerRound) :
    wordsRead (readsFrom start values) = values := by
  induction values generalizing start with
  | nil => rfl
  | cons value rest inductionHypothesis =>
    rw [List.length_cons] at below
    have later : wordsRead (readsFrom (start + 1) rest) = rest :=
      inductionHypothesis (by omega) (by omega)
    rw [wordsRead] at later ⊢
    rw [readsFrom, List.filterMap_cons, later, wordRead?, if_pos ⟨above, by omega⟩]

theorem valuesRead_looksAt (codes : List UInt32) :
    valuesRead Register.completion (looksAt codes) = codes := by
  rw [valuesRead, looksAt, List.filterMap_map]
  exact List.filterMap_some

theorem valuesRead_looksAt_other {register : Nat} (other : register ≠ Register.completion)
    (codes : List UInt32) : valuesRead register (looksAt codes) = [] := by
  refine List.filterMap_eq_nil_iff.mpr fun access member => ?_
  obtain ⟨code, _, rfl⟩ := List.mem_map.mp member
  exact if_neg (Ne.symm other)

theorem wordsRead_looksAt (codes : List UInt32) : wordsRead (looksAt codes) = [] := by
  refine List.filterMap_eq_nil_iff.mpr fun access member => ?_
  obtain ⟨code, _, rfl⟩ := List.mem_map.mp member
  rfl

theorem plain_looksAt (codes : List UInt32) : ∀ access ∈ looksAt codes, access.Plain := by
  intro access member
  obtain ⟨code, _, rfl⟩ := List.mem_map.mp member
  exact ⟨(by decide : Register.completion < Register.count), rfl⟩

/-- Writes read nothing. -/
theorem nothing_read_of_writes {accesses : List Access}
    (writes : ∀ access ∈ accesses, ∃ place value, access = .write place value) (register : Nat) :
    valuesRead register accesses = [] ∧ wordsRead accesses = [] := by
  refine ⟨List.filterMap_eq_nil_iff.mpr fun access member => ?_,
    List.filterMap_eq_nil_iff.mpr fun access member => ?_⟩
  all_goals
    obtain ⟨place, value, rfl⟩ := writes access member
    rfl

/-- Reads write nothing. -/
theorem nothing_written_of_reads {accesses : List Access}
    (reads : ∀ access ∈ accesses, ∃ place value, access = .read place value) (register : Nat) :
    valuesWritten register accesses = [] := by
  refine List.filterMap_eq_nil_iff.mpr fun access member => ?_
  obtain ⟨place, value, rfl⟩ := reads access member
  rfl

theorem valuesWritten_looksAt (register : Nat) (codes : List UInt32) :
    valuesWritten register (looksAt codes) = [] :=
  nothing_written_of_reads (fun access member => by
    obtain ⟨code, _, rfl⟩ := List.mem_map.mp member
    exact ⟨_, _, rfl⟩) register

theorem valuesWritten_readsFrom (register start : Nat) (values : List UInt32) :
    valuesWritten register (readsFrom start values) = [] :=
  nothing_written_of_reads (fun access member => by
    obtain ⟨place, value, read, _⟩ := exists_of_mem_readsFrom member
    exact ⟨place, value, read⟩) register

theorem valuesWritten_starting (first : Completion) :
    valuesWritten Register.doorbell (starting first) = if first = .byTrusted then [1] else [] := by
  rw [starting]
  split
  · rfl
  · rfl

theorem valuesWritten_eq_nil {register : Nat} {accesses : List Access}
    (other : ∀ access ∈ accesses, access.register ≠ register) :
    valuesWritten register accesses = [] := by
  refine List.filterMap_eq_nil_iff.mpr fun access member => ?_
  cases access with
  | read place value => rfl
  | write place value => exact if_neg (other _ member)

theorem exists_of_mem_starting {first : Completion} {access : Access}
    (member : access ∈ starting first) :
    ∃ place value, access = .write place value ∧
      (place = Register.completion ∨ place = Register.doorbell) := by
  rw [starting] at member
  split at member
  · rcases List.mem_cons.mp member with rfl | member
    · exact ⟨_, _, rfl, .inl rfl⟩
    · exact ⟨_, _, List.mem_singleton.mp member, .inr rfl⟩
  · exact ⟨_, _, List.mem_singleton.mp member, .inl rfl⟩

/-- A request is laid into the registers of the header and the length, in front of that of the
round, and into those of the request's words. -/
theorem exists_of_mem_placing {query : Query} (short : query.words.length ≤ Request.maxWords)
    {access : Access} (member : access ∈ placing query) :
    ∃ place value, access = .write place value ∧
      (Register.requestHeader ≤ place ∧ place < Register.round ∨
        Register.requestData ≤ place ∧ place < Register.requestData + Request.maxWords) := by
  rcases List.mem_cons.mp member with rfl | member
  · exact ⟨_, _, rfl, .inl (by decide)⟩
  rcases List.mem_append.mp member with header | member
  · obtain ⟨place, value, rfl, above, below⟩ := exists_of_mem_writesFrom header
    exact ⟨place, value, rfl, .inl ⟨above, Nat.lt_of_lt_of_le below
      (by decide : Register.requestHeader + 4 ≤ Register.round)⟩⟩
  rcases List.mem_append.mp member with zero | word
  · obtain ⟨place, value, rfl, above, below⟩ := exists_of_mem_writesFrom zero
    rw [List.length_replicate] at below
    exact ⟨place, value, rfl, .inr ⟨above, below⟩⟩
  · obtain ⟨place, value, rfl, above, below⟩ := exists_of_mem_writesFrom word
    exact ⟨place, value, rfl, .inr ⟨above, by omega⟩⟩

theorem valuesWritten_placing {query : Query} (short : query.words.length ≤ Request.maxWords)
    {register : Nat} (other : register = Register.round ∨ register = Register.doorbell) :
    valuesWritten register (placing query) = [] := by
  refine valuesWritten_eq_nil fun access member => ?_
  obtain ⟨place, value, rfl, range⟩ := exists_of_mem_placing short member
  have behind : Register.round < Register.requestData := by decide
  have before : Register.requestData + Request.maxWords ≤ Register.doorbell := by decide
  exact (by omega : place ≠ register)

/-! ### Rounds -/

/-- A round inside the window, whose completion status was looked at until it was set. -/
structure Waited (polls : Nat) (round : List Access) : Prop where
  plain : ∀ access ∈ round, access.Plain
  awaited : Awaited polls (looks round) (status round)

theorem Awaited.length_le {polls : Nat} {looks : List Completion} {status : Completion}
    (awaited : Awaited polls looks status) : looks.length ≤ polls := by
  induction awaited with
  | exhausted => exact Nat.le_refl _
  | passed _ inductionHypothesis => exact Nat.succ_le_succ inductionHypothesis
  | settled _ => exact Nat.succ_le_succ (Nat.zero_le _)

/-- What looks come to is the first status that is set. -/
theorem Awaited.find?_eq {polls : Nat} {looks : List Completion} {status : Completion}
    (awaited : Awaited polls looks status) :
    (looks.find? fun status => status ≠ .pending).getD .hostTimeout = status := by
  induction awaited with
  | exhausted => rfl
  | passed _ inductionHypothesis => exact inductionHypothesis
  | @settled polls status set =>
    have found : [status].find? (fun status => status ≠ .pending) = some status :=
      List.find?_cons_of_pos (decide_eq_true set)
    rw [found, Option.getD_some]

section Round

variable {found : Completion} {codes : List UInt32} {polls : Nat} (first : Completion)
  (rest : List Access)

theorem reads_starting (register : Nat) :
    valuesRead register (starting first) = [] ∧ wordsRead (starting first) = [] :=
  nothing_read_of_writes (fun access member => by
    obtain ⟨place, value, written, _⟩ := exists_of_mem_starting member
    exact ⟨place, value, written⟩) register

theorem valuesRead_round (register : Nat) :
    valuesRead register (starting first ++ (looksAt codes ++ rest)) =
      valuesRead register (looksAt codes) ++ valuesRead register rest := by
  rw [valuesRead_append, (reads_starting first register).1, valuesRead_append, List.nil_append]

theorem wordsRead_round :
    wordsRead (starting first ++ (looksAt codes ++ rest)) = wordsRead rest := by
  rw [wordsRead_append, (reads_starting first 0).2, wordsRead_append, wordsRead_looksAt,
    List.nil_append, List.nil_append]

/-- A round that is started, waited for and then read. -/
theorem waited_round (awaited : Awaited polls (codes.map Completion.ofCode) found)
    (plain : ∀ access ∈ rest, access.Plain)
    (silent : valuesRead Register.completion rest = []) :
    Waited polls (starting first ++ (looksAt codes ++ rest)) ∧
      status (starting first ++ (looksAt codes ++ rest)) = found := by
  have seen : looks (starting first ++ (looksAt codes ++ rest)) = codes.map Completion.ofCode := by
    rw [looks, valuesRead_round, valuesRead_looksAt, silent, List.append_nil]
  have comes : status (starting first ++ (looksAt codes ++ rest)) = found := by
    rw [status, seen, awaited.find?_eq]
  refine ⟨⟨fun access member => ?_, ?_⟩, comes⟩
  · rcases List.mem_append.mp member with start | member
    · obtain ⟨place, value, rfl, rfl | rfl⟩ := exists_of_mem_starting start
      · exact ⟨(by decide : Register.completion < Register.count), rfl⟩
      · exact ⟨(by decide : Register.doorbell < Register.count), rfl⟩
    rcases List.mem_append.mp member with look | behind
    · exact plain_looksAt codes access look
    · exact plain access behind
  · rw [seen, comes]
    exact awaited

/-- A round that is started and waited for, and behind which nothing is accessed. -/
theorem waited_silent (awaited : Awaited polls (codes.map Completion.ofCode) found) :
    Waited polls (starting first ++ looksAt codes) ∧
      status (starting first ++ looksAt codes) = found ∧
      wordsRead (starting first ++ looksAt codes) = [] := by
  have shape := waited_round first [] awaited (fun _ member => absurd member List.not_mem_nil) rfl
  rw [List.append_nil] at shape
  refine ⟨shape.1, shape.2, ?_⟩
  rw [wordsRead_append, (reads_starting first 0).2, wordsRead_looksAt, List.append_nil]

end Round

section Words

variable {words : List UInt32} (fits : words.length ≤ wordsPerRound)
include fits

/-- The words of a round are read inside the window. -/
theorem plain_readsFrom : ∀ access ∈ readsFrom Register.responseData words, access.Plain := by
  intro access member
  obtain ⟨place, value, rfl, _, below⟩ := exists_of_mem_readsFrom member
  have inside : Register.responseData + wordsPerRound ≤ Register.count := by decide
  exact ⟨Nat.lt_of_lt_of_le below (by omega), rfl⟩

theorem looks_readsFrom :
    valuesRead Register.completion (readsFrom Register.responseData words) = [] := by
  have behind : Register.responseData + wordsPerRound ≤ Register.completion := by decide
  exact valuesRead_readsFrom_of_outside (.inr (by omega))

theorem wordsRead_responseData : wordsRead (readsFrom Register.responseData words) = words :=
  wordsRead_readsFrom (Nat.le_refl _) (by omega)

end Words

theorem length_le_wordsPerRound {words : List UInt32} {left : Nat}
    (length : words.length = min wordsPerRound left) : words.length ≤ wordsPerRound :=
  length ▸ Nat.min_le_left _ _
/-! ### The rounds of a course -/

theorem splitOnP_rounds {before : List Access} {round : Nat} {rounds : List (List Access)}
    (front : ∀ access ∈ before, access.namesRound = false)
    (plain : ∀ accesses ∈ rounds, ∀ access ∈ accesses, access.namesRound = false) :
    (before ++ Access.rounds round rounds).splitOnP namesRound = before :: rounds := by
  induction rounds generalizing before round with
  | nil =>
    rw [Access.rounds, List.append_nil]
    exact List.splitOnP_eq_singleton front
  | cons accesses later inductionHypothesis =>
    rw [Access.rounds, List.splitOnP_append_cons_of_forall_mem front _ rfl,
      inductionHypothesis (plain accesses List.mem_cons_self)
        fun others member => plain others (List.mem_cons_of_mem _ member)]

theorem eq_or_mem_of_mem_rounds {round : Nat} {rounds : List (List Access)} {access : Access}
    (member : access ∈ Access.rounds round rounds) :
    (∃ value, access = .write Register.round value) ∨
      ∃ accesses ∈ rounds, access ∈ accesses := by
  induction rounds generalizing round with
  | nil => cases member
  | cons accesses later inductionHypothesis =>
    rcases List.mem_cons.mp member with rfl | member
    · exact .inl ⟨_, rfl⟩
    rcases List.mem_append.mp member with inside | behind
    · exact .inr ⟨accesses, List.mem_cons_self, inside⟩
    · rcases inductionHypothesis behind with named | ⟨others, opened, within⟩
      · exact .inl named
      · exact .inr ⟨others, List.mem_cons_of_mem _ opened, within⟩

theorem valuesRead_rounds (register round : Nat) (rounds : List (List Access)) :
    valuesRead register (Access.rounds round rounds) = valuesRead register rounds.flatten := by
  induction rounds generalizing round with
  | nil => rfl
  | cons accesses later inductionHypothesis =>
    rw [List.flatten_cons, valuesRead_append, ← inductionHypothesis (round + 1),
      ← valuesRead_append]
    rfl

/-- The rounds are named in turn, if nothing else is written where they are named. -/
theorem valuesWritten_round_rounds {round : Nat} {rounds : List (List Access)}
    (plain : ∀ accesses ∈ rounds, ∀ access ∈ accesses, access.namesRound = false) :
    valuesWritten Register.round (Access.rounds round rounds) =
      (List.range' round rounds.length).map UInt32.ofNat := by
  induction rounds generalizing round with
  | nil => rfl
  | cons accesses later inductionHypothesis =>
    have silent : valuesWritten Register.round accesses = [] := by
      refine List.filterMap_eq_nil_iff.mpr fun access member => ?_
      have other := plain accesses List.mem_cons_self access member
      cases access with
      | read place value => rfl
      | write place value => exact if_neg (beq_eq_false_iff_ne.mp other)
    have behind : valuesWritten Register.round (Access.rounds (round + 1) later) =
        (List.range' (round + 1) later.length).map UInt32.ofNat :=
      inductionHypothesis fun others member => plain others (List.mem_cons_of_mem _ member)
    rw [List.length_cons, List.range'_succ, List.map_cons, ← behind]
    have cut : valuesWritten Register.round (accesses ++ Access.rounds (round + 1) later) =
        valuesWritten Register.round (Access.rounds (round + 1) later) := by
      rw [valuesWritten_append, silent, List.nil_append]
    rw [← cut]
    rfl

theorem valuesWritten_rounds {register : Nat} (other : register ≠ Register.round) (round : Nat)
    (rounds : List (List Access)) :
    valuesWritten register (Access.rounds round rounds) =
      (rounds.map (valuesWritten register)).flatten := by
  induction rounds generalizing round with
  | nil => rfl
  | cons accesses later inductionHypothesis =>
    rw [List.map_cons, List.flatten_cons, ← inductionHypothesis (round + 1),
      ← valuesWritten_append]
    exact List.filterMap_cons_none (if_neg (Ne.symm other))

theorem wordsRead_rounds (round : Nat) (rounds : List (List Access)) :
    wordsRead (Access.rounds round rounds) = wordsRead rounds.flatten := by
  induction rounds generalizing round with
  | nil => rfl
  | cons accesses later inductionHypothesis =>
    rw [List.flatten_cons, wordsRead_append, ← inductionHypothesis (round + 1),
      ← wordsRead_append]
    rfl
theorem starting_byTrusted : starting .byTrusted = ringing :=
  if_pos rfl

theorem plain_stated (stated : UInt32) :
    ∀ access ∈ [Access.read Register.responseWords stated], access.Plain := by
  intro access member
  rw [List.mem_singleton.mp member]
  exact ⟨(by decide : Register.responseWords < Register.count), rfl⟩

section Answer

variable {words : List UInt32} (stated version : UInt32)

theorem valuesRead_answer {register : Nat} (before : register < Register.responseData) :
    valuesRead register (answer stated version words) =
      valuesRead register [.read Register.responseWords stated,
        .read Register.responseVersion version] := by
  have split : answer stated version words =
      [.read Register.responseWords stated, .read Register.responseVersion version] ++
        readsFrom Register.responseData words := rfl
  rw [split, valuesRead_append, valuesRead_readsFrom_of_outside (.inl before), List.append_nil]

variable (fits : words.length ≤ wordsPerRound)
include fits

theorem plain_answer : ∀ access ∈ answer stated version words, access.Plain := by
  intro access member
  rcases List.mem_cons.mp member with rfl | member
  · exact ⟨(by decide : Register.responseWords < Register.count), rfl⟩
  rcases List.mem_cons.mp member with rfl | member
  · exact ⟨(by decide : Register.responseVersion < Register.count), rfl⟩
  · exact plain_readsFrom fits access member

theorem looks_answer : valuesRead Register.completion (answer stated version words) = [] :=
  looks_readsFrom fits

theorem wordsRead_answer : wordsRead (answer stated version words) = words :=
  wordsRead_responseData fits

end Answer

namespace RoundsCourse

variable {polls total left round : Nat} {first : Completion} {version : UInt32}
  {words : List UInt32} {rounds : List (List Access)} {outcome : Window.Outcome}

theorem waited
    (course : RoundsCourse polls first version total left round words rounds outcome) :
    ∀ accesses ∈ rounds, Waited polls accesses := by
  induction course with
  | finished => exact fun _ member => absurd member List.not_mem_nil
  | @broken left round words codes status awaited incomplete =>
    intro accesses member
    rw [List.mem_singleton.mp member]
    exact (waited_silent first awaited).1
  | read awaited complete length _ inductionHypothesis =>
    intro accesses member
    have fits := length_le_wordsPerRound length
    rcases List.mem_cons.mp member with rfl | later
    · exact (waited_round first _ awaited (plain_readsFrom fits) (looks_readsFrom fits)).1
    · exact inductionHypothesis accesses later

end RoundsCourse

namespace RequestCourse

variable {polls : Nat} {rounds : List (List Access)} {outcome : Window.Outcome} {query : Query}

theorem waited (course : RequestCourse polls rounds outcome) :
    ∀ accesses ∈ rounds, Waited polls accesses := by
  cases course with
  | failed awaited incomplete =>
    intro accesses member
    rw [List.mem_singleton.mp member, ← starting_byTrusted]
    exact (waited_silent .byTrusted awaited).1
  | @overlong codes first stated awaited complete long =>
    intro accesses member
    rw [List.mem_singleton.mp member, ← starting_byTrusted]
    exact (waited_round .byTrusted _ awaited (plain_stated stated) rfl).1
  | read awaited complete short length rest =>
    intro accesses member
    have fits := length_le_wordsPerRound length
    rcases List.mem_cons.mp member with rfl | later
    · rw [← starting_byTrusted]
      exact (waited_round .byTrusted _ awaited (plain_answer _ _ fits) (looks_answer _ _ fits)).1
    · exact rest.waited accesses later

theorem roundsOf_eq (course : RequestCourse polls rounds outcome)
    (short : query.words.length ≤ Request.maxWords) :
    roundsOf (placing query ++ Access.rounds 0 rounds) = rounds := by
  have front : ∀ access ∈ placing query, access.namesRound = false := by
    intro access member
    obtain ⟨place, value, rfl, range⟩ := exists_of_mem_placing short member
    have behind : Register.round < Register.requestData := by decide
    exact beq_eq_false_iff_ne.mpr (by omega)
  rw [roundsOf, splitOnP_rounds front fun accesses member access inside =>
    ((course.waited accesses member).plain access inside).2, List.tail_cons]

theorem inside (course : RequestCourse polls rounds outcome)
    (short : query.words.length ≤ Request.maxWords) :
    ∀ access ∈ placing query ++ Access.rounds 0 rounds, access.register < Register.count := by
  intro access member
  rcases List.mem_append.mp member with placed | member
  · obtain ⟨place, value, rfl, range⟩ := exists_of_mem_placing short placed
    have before : Register.round < Register.count := by decide
    have data : Register.requestData + Request.maxWords ≤ Register.count := by decide
    exact (by omega : place < Register.count)
  · rcases eq_or_mem_of_mem_rounds member with ⟨value, rfl⟩ | ⟨accesses, opened, within⟩
    · exact (by decide : Register.round < Register.count)
    · exact ((course.waited accesses opened).plain access within).1

theorem reads_request (short : query.words.length ≤ Request.maxWords)
    (rounds : List (List Access)) (register : Nat) :
    valuesRead register (placing query ++ Access.rounds 0 rounds) =
        valuesRead register rounds.flatten ∧
      wordsRead (placing query ++ Access.rounds 0 rounds) = wordsRead rounds.flatten := by
  obtain ⟨values, words⟩ := nothing_read_of_writes (fun access member => by
    obtain ⟨place, value, written, _⟩ := exists_of_mem_placing short member
    exact ⟨place, value, written⟩) register
  rw [valuesRead_append, values, valuesRead_rounds, wordsRead_append, words, wordsRead_rounds,
    List.nil_append, List.nil_append]
  exact ⟨rfl, rfl⟩

end RequestCourse

end NicScope
