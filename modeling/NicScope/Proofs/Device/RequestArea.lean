/-
This file proves what the firmware finds in the register window when a request is handed over
to it. Requests and responses share the window, and what an earlier exchange left there may be
anything. But before the doorbell is rung for the first time, a request has written every register
of its area, with its own words or with zero; so what the firmware finds there is this request and
nothing else, whatever has happened at the window before. Outside that area a request writes only
to the completion status and to the doorbell.
-/

import NicScope.Proofs.Device.ConformingDevice
import NicScope.Proofs.Device.Rounds

namespace NicScope

open Access

/-! ### What is handed over -/

/-- The words in consecutive registers. -/
def wordsAt (registers : Nat → UInt32) (start count : Nat) : List UInt32 :=
  (List.range' start count).map registers

/-- Registers that show a request to the firmware. -/
structure HandedOver (query : Query) (registers : Nat → UInt32) : Prop where
  header : wordsAt registers Register.requestHeader 4 = query.header.words
  length : registers Register.requestWords = UInt32.ofNat query.words.length
  round : registers Register.round = 0
  data : wordsAt registers Register.requestData Request.maxWords =
    query.words ++ List.replicate (Request.maxWords - query.words.length) 0
  completion : registers Register.completion = 0

/-- The registers that a request may write. -/
def RequestArea (register : Nat) : Prop :=
  (Register.requestHeader ≤ register ∧ register < Register.requestData + Request.maxWords) ∨
    register = Register.completion ∨ register = Register.doorbell

/-! ### Registers after writes -/

/-- What registers hold after accesses, if the writes among them are kept. -/
def settle (registers : Nat → UInt32) : List Access → Nat → UInt32
  | [] => registers
  | .read _ _ :: later => settle registers later
  | .write register value :: later => settle (Function.update registers register value) later

theorem settle_append (registers : Nat → UInt32) (first second : List Access) :
    settle registers (first ++ second) = settle (settle registers first) second := by
  induction first generalizing registers with
  | nil => rfl
  | cons access rest inductionHypothesis =>
    cases access with
    | read register value => exact inductionHypothesis registers
    | write register value => exact inductionHypothesis _

theorem settle_writesFrom_of_outside {start place : Nat} {values : List UInt32}
    (outside : place < start ∨ start + values.length ≤ place) (registers : Nat → UInt32) :
    settle registers (writesFrom start values) place = registers place := by
  induction values generalizing start registers with
  | nil => rfl
  | cons value rest inductionHypothesis =>
    rw [List.length_cons] at outside
    rw [writesFrom, settle, inductionHypothesis (by omega),
      Function.update_of_ne (by omega)]

/-- A register that is not written keeps what it holds. -/
theorem settle_of_unwritten {accesses : List Access} {place : Nat}
    (unwritten : ∀ value, .write place value ∉ accesses) (registers : Nat → UInt32) :
    settle registers accesses place = registers place := by
  induction accesses generalizing registers with
  | nil => rfl
  | cons access rest inductionHypothesis =>
    have later value := List.not_mem_of_not_mem_cons (unwritten value)
    cases access with
    | read register value => exact inductionHypothesis later registers
    | write register value =>
      have other : place ≠ register := by
        rintro rfl
        exact unwritten value List.mem_cons_self
      rw [settle, inductionHypothesis later, Function.update_of_ne other]

/-- Consecutive writes are found where they were written. -/
theorem wordsAt_settle_writesFrom (start : Nat) (values : List UInt32)
    (registers : Nat → UInt32) :
    wordsAt (settle registers (writesFrom start values)) start values.length = values := by
  induction values generalizing start registers with
  | nil => rfl
  | cons value rest inductionHypothesis =>
    have later := inductionHypothesis (start + 1) (Function.update registers start value)
    have here : settle registers (writesFrom start (value :: rest)) start = value := by
      rw [writesFrom, settle, settle_writesFrom_of_outside (.inl (Nat.lt_succ_self start)),
        Function.update_self]
    rw [wordsAt, List.length_cons, List.range'_succ, List.map_cons, here]
    exact congrArg (value :: ·) later

/-- Where zeros are written there are zeros. -/
theorem settle_zeros {start count place : Nat} (above : start ≤ place)
    (below : place < start + count) (registers : Nat → UInt32) :
    settle registers (writesFrom start (List.replicate count 0)) place = 0 := by
  have zeros := wordsAt_settle_writesFrom start (List.replicate count 0) registers
  rw [List.length_replicate] at zeros
  have word : settle registers (writesFrom start (List.replicate count 0)) place ∈
      wordsAt (settle registers (writesFrom start (List.replicate count 0))) start count :=
    List.mem_map_of_mem (List.mem_range'_1.mpr ⟨above, below⟩)
  rw [zeros] at word
  exact List.eq_of_mem_replicate word

theorem wordsAt_congr {first second : Nat → UInt32} {start count : Nat}
    (same : ∀ place, start ≤ place → place < start + count → first place = second place) :
    wordsAt first start count = wordsAt second start count := by
  refine List.map_congr_left fun place member => ?_
  obtain ⟨above, below⟩ := List.mem_range'_1.mp member
  exact same place above below

theorem wordsAt_append (registers : Nat → UInt32) (start first second : Nat) :
    wordsAt registers start (first + second) =
      wordsAt registers start first ++ wordsAt registers (start + first) second := by
  rw [wordsAt, ← List.range'_append_1, List.map_append]
  rfl

theorem wordsAt_replicate {registers : Nat → UInt32} {start count : Nat}
    (zero : ∀ place, start ≤ place → place < start + count → registers place = 0) :
    wordsAt registers start count = List.replicate count 0 := by
  refine List.eq_replicate_iff.mpr ⟨by rw [wordsAt, List.length_map, List.length_range'], ?_⟩
  intro word member
  obtain ⟨place, among, rfl⟩ := List.mem_map.mp member
  obtain ⟨above, below⟩ := List.mem_range'_1.mp among
  exact zero place above below

section Placing

variable (query : Query) (registers : Nat → UInt32)

/-- The registers once the length and the header of a request are written. -/
def headed : Nat → UInt32 :=
  settle (Function.update registers Register.requestWords (UInt32.ofNat query.words.length))
    (writesFrom Register.requestHeader query.header.words)

/-- The registers once the words of earlier requests are cleared too. -/
def cleared : Nat → UInt32 :=
  settle (headed query registers)
    (writesFrom Register.requestData (List.replicate Request.maxWords 0))

theorem settle_placing :
    settle registers (placing query) =
      settle (cleared query registers) (writesFrom Register.requestData query.words) := by
  rw [placing, settle, settle_append, settle_append]
  rfl

theorem settle_placing_of_lt {place : Nat} (before : place < Register.requestData) :
    settle registers (placing query) place = headed query registers place := by
  rw [settle_placing, settle_writesFrom_of_outside (.inl before), cleared,
    settle_writesFrom_of_outside (.inl before)]

theorem cleared_eq_zero {place : Nat} (above : Register.requestData ≤ place)
    (below : place < Register.requestData + Request.maxWords) :
    cleared query registers place = 0 :=
  settle_zeros above below (headed query registers)

/-- The words of a request are followed by zeros, whatever was there before. -/
theorem wordsAt_settle_placing (short : query.words.length ≤ Request.maxWords) :
    wordsAt (settle registers (placing query)) Register.requestData Request.maxWords =
      query.words ++ List.replicate (Request.maxWords - query.words.length) 0 := by
  obtain ⟨left, total⟩ := Nat.exists_eq_add_of_le short
  rw [total, Nat.add_sub_cancel_left, wordsAt_append, settle_placing, wordsAt_settle_writesFrom]
  refine congrArg (query.words ++ ·) (wordsAt_replicate fun place above below => ?_)
  rw [settle_writesFrom_of_outside (.inr above)]
  exact cleared_eq_zero query registers (by omega) (by omega)

/-- What a request writes before it rings the doorbell. -/
def handingOver : List Access :=
  placing query ++ [.write Register.round 0, .write Register.completion 0]

theorem settle_handingOver :
    settle registers (handingOver query) =
      Function.update (Function.update (settle registers (placing query)) Register.round 0)
        Register.completion 0 := by
  rw [handingOver, settle_append]
  rfl

/-- Whatever the registers held, behind the first writes of a request they show the request. -/
theorem handedOver_settle (short : query.words.length ≤ Request.maxWords) :
    HandedOver query (settle registers (handingOver query)) := by
  have placed {place : Nat} (round : place ≠ Register.round)
      (completion : place ≠ Register.completion) :
      settle registers (handingOver query) place = settle registers (placing query) place := by
    rw [settle_handingOver, Function.update_of_ne completion, Function.update_of_ne round]
  refine ⟨?_, ?_, ?_, ?_, ?_⟩
  · have front (place : Nat) (below : place < Register.requestHeader + 4) :
        settle registers (handingOver query) place = headed query registers place := by
      have round : Register.requestHeader + 4 < Register.round := by decide
      have completion : Register.round < Register.completion := by decide
      have data : Register.round < Register.requestData := by decide
      rw [placed (by omega) (by omega), settle_placing_of_lt query registers (by omega)]
    rw [wordsAt_congr fun place _ below => front place below]
    exact wordsAt_settle_writesFrom Register.requestHeader query.header.words _
  · rw [placed (by decide) (by decide), settle_placing_of_lt query registers (by decide), headed,
      settle_writesFrom_of_outside (.inr (Nat.le_refl Register.requestWords)),
      Function.update_self]
  · rw [settle_handingOver, Function.update_of_ne (by decide), Function.update_self]
  · have round : Register.round < Register.requestData := by decide
    have completion : Register.requestData + Request.maxWords ≤ Register.completion := by decide
    rw [wordsAt_congr fun place above below => placed (by omega) (by omega)]
    exact wordsAt_settle_placing query registers short
  · rw [settle_handingOver, Function.update_self]

end Placing

/-! ### Windows that keep what is written -/

/-- A window that keeps what is written to it until a round is started, be it by the doorbell or,
behind the first round, by clearing the completion status. What a register holds at other times,
and what is read there, is not said. -/
structure KeepsWrites {σ : Type} (window : Window σ) (held : σ → Nat → UInt32) : Prop where
  kept : ∀ (state : σ) (register : Nat) (value : UInt32), register ≠ Register.doorbell →
    (register = Register.completion → held state Register.round = 0) →
    held (window.write register value state).2 = Function.update (held state) register value

theorem Window.performs_of_append {σ : Type} {window : Window σ} {state final : σ}
    {before later : List Access} (performs : window.Performs state (before ++ later) final) :
    ∃ middle, window.Performs state before middle ∧ window.Performs middle later final := by
  induction before generalizing state with
  | nil => exact ⟨state, rfl, performs⟩
  | cons access rest inductionHypothesis =>
    cases access with
    | read register value =>
      obtain ⟨middle, first, second⟩ := inductionHypothesis performs.2
      exact ⟨middle, ⟨performs.1, first⟩, second⟩
    | write register value =>
      obtain ⟨middle, first, second⟩ := inductionHypothesis performs
      exact ⟨middle, first, second⟩

/-- Writes in front of the one that starts a round are kept. -/
theorem KeepsWrites.performs {σ : Type} {window : Window σ} {held : σ → Nat → UInt32}
    (keeps : KeepsWrites window held) {accesses : List Access} {state final : σ}
    (writes : ∀ access ∈ accesses, ∃ place value, access = .write place value ∧
      place ≠ Register.doorbell ∧ place ≠ Register.completion)
    (performs : window.Performs state accesses final) :
    held final = settle (held state) accesses := by
  induction accesses generalizing state with
  | nil =>
    obtain rfl : final = state := performs
    rfl
  | cons access later inductionHypothesis =>
    obtain ⟨place, value, rfl, doorbell, completion⟩ := writes access List.mem_cons_self
    rw [settle, ← keeps.kept state place value doorbell fun same => absurd same completion]
    exact inductionHypothesis (fun other member => writes other (List.mem_cons_of_mem _ member))
      performs

/-- The completion status may be written last among them, if the first round is named by then. -/
theorem KeepsWrites.performs_completion {σ : Type} {window : Window σ} {held : σ → Nat → UInt32}
    (keeps : KeepsWrites window held) {accesses : List Access} {state final : σ}
    (writes : ∀ access ∈ accesses, ∃ place value, access = .write place value ∧
      place ≠ Register.doorbell ∧ place ≠ Register.completion)
    (named : settle (held state) accesses Register.round = 0) {value : UInt32}
    (performs : window.Performs state (accesses ++ [.write Register.completion value]) final) :
    held final = settle (held state) (accesses ++ [.write Register.completion value]) := by
  obtain ⟨middle, front, last⟩ := Window.performs_of_append performs
  obtain rfl : final = _ := last
  have kept := keeps.performs writes front
  rw [keeps.kept middle _ value (by decide) fun _ => kept ▸ named, kept, settle_append]
  rfl

/-- The window of a device that holds a response keeps what is written to it. -/
theorem HeldResponse.keepsWrites_window (response : HeldResponse) (status : Completion)
    (delay : Nat) : KeepsWrites (response.window status delay) DeviceState.registers where
  kept device register value _ _ := by
    simp only [HeldResponse.window]
    split
    · rfl
    · rfl

/-! ### Writes of a request -/

/-- What a request accesses once its first round is named: it writes nothing but what starts a
round. -/
def StartsOnly (accesses : List Access) : Prop :=
  ∀ place value, .write place value ∈ accesses →
    place = Register.completion ∨ place = Register.doorbell

theorem startsOnly_of_reads {accesses : List Access}
    (reads : ∀ access ∈ accesses, ∃ place value, access = .read place value) :
    StartsOnly accesses := by
  intro place value member
  obtain ⟨_, _, same⟩ := reads _ member
  cases same

theorem startsOnly_looksAt (codes : List UInt32) : StartsOnly (looksAt codes) :=
  startsOnly_of_reads fun access member => by
    obtain ⟨code, _, rfl⟩ := List.mem_map.mp member
    exact ⟨_, _, rfl⟩

theorem startsOnly_readsFrom (start : Nat) (values : List UInt32) :
    StartsOnly (readsFrom start values) :=
  startsOnly_of_reads fun access member => by
    obtain ⟨place, value, read, _⟩ := exists_of_mem_readsFrom member
    exact ⟨place, value, read⟩

theorem startsOnly_starting (first : Completion) : StartsOnly (starting first) := by
  intro place value member
  obtain ⟨_, _, same, starts⟩ := exists_of_mem_starting member
  cases same
  exact starts

theorem StartsOnly.append {first second : List Access} (one : StartsOnly first)
    (other : StartsOnly second) : StartsOnly (first ++ second) :=
  fun place value member => (List.mem_append.mp member).elim (one place value) (other place value)

theorem RoundsCourse.startsOnly {polls total left round : Nat} {first : Completion}
    {version : UInt32} {words : List UInt32} {rounds : List (List Access)}
    {outcome : Window.Outcome}
    (course : RoundsCourse polls first version total left round words rounds outcome) :
    ∀ accesses ∈ rounds, StartsOnly accesses := by
  induction course with
  | finished => exact fun _ member => absurd member List.not_mem_nil
  | broken =>
    intro accesses member
    rw [List.mem_singleton.mp member]
    exact (startsOnly_starting _).append (startsOnly_looksAt _)
  | read _ _ _ _ inductionHypothesis =>
    intro accesses member
    rcases List.mem_cons.mp member with rfl | later
    · exact (startsOnly_starting _).append
        ((startsOnly_looksAt _).append (startsOnly_readsFrom _ _))
    · exact inductionHypothesis accesses later

namespace RequestCourse

variable {polls : Nat} {rounds : List (List Access)} {outcome : Window.Outcome}

theorem startsOnly (course : RequestCourse polls rounds outcome) :
    ∀ accesses ∈ rounds, StartsOnly accesses := by
  have rings : StartsOnly Access.ringing := startsOnly_starting .byTrusted
  cases course with
  | failed =>
    intro accesses member
    rw [List.mem_singleton.mp member]
    exact rings.append (startsOnly_looksAt _)
  | @overlong codes first stated =>
    intro accesses member
    rw [List.mem_singleton.mp member]
    exact rings.append ((startsOnly_looksAt _).append
      (startsOnly_readsFrom Register.responseWords [stated]))
  | @read codes words first stated version later _ _ _ _ _ rest =>
    intro accesses member
    rcases List.mem_cons.mp member with rfl | behind
    · exact rings.append ((startsOnly_looksAt _).append
        (startsOnly_of_reads fun access among => by
          rcases List.mem_cons.mp among with rfl | among
          · exact ⟨_, _, rfl⟩
          rcases List.mem_cons.mp among with rfl | among
          · exact ⟨_, _, rfl⟩
          · obtain ⟨place, value, read, _⟩ := exists_of_mem_readsFrom among
            exact ⟨place, value, read⟩))
    · exact rest.startsOnly accesses behind

/-- Every request begins with its first round, for which the doorbell is rung. -/
theorem exists_ringing (course : RequestCourse polls rounds outcome) :
    ∃ behind, Access.rounds 0 rounds = [.write Register.round 0, .write Register.completion 0] ++
      .write Register.doorbell 1 :: behind := by
  cases course with
  | failed | overlong | read => exact ⟨_, rfl⟩

end RequestCourse

/-- A request writes nothing outside its area, the completion status and the doorbell. -/
theorem Window.requestArea_of_mem_accesses {σ : Type} (window : Window σ) (polls : Nat)
    (query : Query) (state : σ) {register : Nat} {value : UInt32}
    (member : .write register value ∈ window.accesses polls query state) :
    RequestArea register := by
  have course := (window.request_course polls query state).2
  split at course
  next long =>
    rw [course.1] at member
    cases member
  next short =>
    obtain ⟨rounds, laid, course⟩ := course
    rw [laid] at member
    rcases List.mem_append.mp member with placed | later
    · obtain ⟨place, _, same, range⟩ := exists_of_mem_placing (Nat.not_lt.mp short) placed
      cases same
      have before : Register.round ≤ Register.requestData + Request.maxWords := by decide
      have behind : Register.requestHeader ≤ Register.requestData := by decide
      exact .inl (by omega)
    · rcases eq_or_mem_of_mem_rounds later with ⟨_, same⟩ | ⟨accesses, opened, within⟩
      · cases same
        exact .inl (by decide)
      · exact .inr (course.startsOnly accesses opened register value within)

/-- When a request rings the doorbell for the first time, the window shows the request, whatever
it held when the request began. -/
theorem KeepsWrites.handsOver {σ : Type} {window : Window σ} {held : σ → Nat → UInt32}
    (keeps : KeepsWrites window held) (polls : Nat) {query : Query}
    (short : query.words.length ≤ Request.maxWords) (state : σ) :
    ∃ behind middle,
      window.accesses polls query state =
        handingOver query ++ .write Register.doorbell 1 :: behind ∧
      window.Performs state (handingOver query) middle ∧ HandedOver query (held middle) := by
  obtain ⟨performs, course⟩ := window.request_course polls query state
  rw [if_neg (Nat.not_lt.mpr short)] at course
  obtain ⟨rounds, laid, course⟩ := course
  obtain ⟨behind, rings⟩ := course.exists_ringing
  have whole : window.accesses polls query state =
      handingOver query ++ .write Register.doorbell 1 :: behind := by
    rw [laid, rings, handingOver, List.append_assoc]
  rw [whole] at performs
  obtain ⟨middle, front, _⟩ := Window.performs_of_append performs
  refine ⟨behind, middle, whole, front, ?_⟩
  -- The first round is named before the completion status is cleared, so that is kept too.
  have split : handingOver query =
      (placing query ++ [.write Register.round 0]) ++ [.write Register.completion 0] := by
    rw [handingOver, List.append_assoc]
    rfl
  have named : settle (held state) (placing query ++ [.write Register.round 0]) Register.round =
      0 := by
    rw [settle_append, settle, settle, Function.update_self]
  have settled : held middle = settle (held state) (handingOver query) := by
    rw [split] at front ⊢
    refine keeps.performs_completion (fun access member => ?_) named front
    rcases List.mem_append.mp member with placed | named
    · obtain ⟨place, value, rfl, range⟩ := exists_of_mem_placing short placed
      have round : Register.round < Register.completion := by decide
      have data : Register.requestData + Request.maxWords ≤ Register.completion := by decide
      have rung : Register.completion < Register.doorbell := by decide
      exact ⟨place, value, rfl, by omega, by omega⟩
    · exact ⟨_, _, List.mem_singleton.mp named, by decide, by decide⟩
  rw [settled]
  exact handedOver_settle query (held state) short

/-! ### Requests one after another -/

namespace Window

variable {σ : Type} (window : Window σ) (polls : Nat)

/-- Requests that are sent one after another, each with its accesses. -/
def history : List Query → σ → List (Query × List Access)
  | [], _ => []
  | query :: later, state =>
    (query, window.accesses polls query state) ::
      history later (window.request polls query state).2

theorem map_fst_history (queries : List Query) (state : σ) :
    (window.history polls queries state).map Prod.fst = queries := by
  induction queries generalizing state with
  | nil => rfl
  | cons query later inductionHypothesis =>
    rw [history, List.map_cons, inductionHypothesis]

/-- Where a request stands in a history, the accesses of those before it lead to the state in
which it begins. -/
theorem exists_of_history_eq {queries : List Query} {state : σ}
    {earlier later : List (Query × List Access)} {query : Query} {accesses : List Access}
    (split : window.history polls queries state = earlier ++ (query, accesses) :: later) :
    ∃ middle, window.Performs state (earlier.flatMap Prod.snd) middle ∧
      accesses = window.accesses polls query middle := by
  induction earlier generalizing queries state with
  | nil =>
    cases queries with
    | nil => cases split
    | cons first others =>
      obtain ⟨same, _⟩ := List.cons.inj split
      cases same
      exact ⟨state, rfl, rfl⟩
  | cons step earlier inductionHypothesis =>
    cases queries with
    | nil => cases split
    | cons first others =>
      obtain ⟨rfl, rest⟩ := List.cons.inj split
      obtain ⟨middle, performs, same⟩ := inductionHypothesis rest
      exact ⟨middle, performs_append (window.request_course polls first state).1 performs, same⟩

/-- However many requests there are and however they end, none of them writes outside its area,
the completion status and the doorbell; and where one that is not too long rings the doorbell for
the first time, the window shows this request. -/
theorem history_handsOver {held : σ → Nat → UInt32} (keeps : KeepsWrites window held)
    (queries : List Query) (state : σ) :
    (window.history polls queries state).map Prod.fst = queries ∧
      (∀ step ∈ window.history polls queries state, ∀ register value,
        .write register value ∈ step.2 → RequestArea register) ∧
      ∀ earlier query accesses later,
        window.history polls queries state = earlier ++ (query, accesses) :: later →
        query.words.length ≤ Request.maxWords →
          ∃ front behind middle, accesses = front ++ .write Register.doorbell 1 :: behind ∧
            (∀ access ∈ front, access.register ≠ Register.doorbell) ∧
            window.Performs state (earlier.flatMap Prod.snd ++ front) middle ∧
            HandedOver query (held middle) := by
  refine ⟨map_fst_history window polls queries state, ?_, ?_⟩
  · rintro ⟨query, accesses⟩ member register value written
    obtain ⟨earlier, later, split⟩ := List.append_of_mem member
    obtain ⟨middle, _, rfl⟩ := exists_of_history_eq window polls split
    exact window.requestArea_of_mem_accesses polls query middle written
  · intro earlier query accesses later split short
    obtain ⟨start, before, rfl⟩ := exists_of_history_eq window polls split
    obtain ⟨behind, middle, whole, front, shown⟩ := keeps.handsOver polls short start
    refine ⟨handingOver query, behind, middle, whole, ?_, performs_append before front, shown⟩
    intro access member
    rcases List.mem_append.mp member with placed | named
    · obtain ⟨place, value, rfl, range⟩ := exists_of_mem_placing short placed
      have round : Register.round < Register.doorbell := by decide
      have data : Register.requestData + Request.maxWords ≤ Register.doorbell := by decide
      exact (by omega : place ≠ Register.doorbell)
    · rcases List.mem_cons.mp named with rfl | named
      · exact (by decide : Register.round ≠ Register.doorbell)
      · rw [List.mem_singleton.mp named]
        exact (by decide : Register.completion ≠ Register.doorbell)

/-- Two words behind a request that was too long and one that filled its area, at a window that
holds something else before: the firmware finds the two words and zeros. -/
theorem history_handsOver_short :
    let response : HeldResponse := ⟨3, List.replicate 121 9, by decide⟩
    let device : DeviceState := ⟨fun _ => 7, some .byTrusted, none⟩
    let window := response.window .byManagement 2
    let header : Header := ⟨0, 1, 2, 3⟩
    let queries : List Query :=
      [⟨header, List.replicate 40 8⟩, ⟨header, List.replicate 32 6⟩, ⟨header, [4, 5]⟩]
    KeepsWrites window DeviceState.registers ∧ [4, 5].length ≤ Request.maxWords ∧
      ∃ earlier accesses,
        window.history 3 queries device = earlier ++ [(⟨header, [4, 5]⟩, accesses)] ∧
        ∃ front behind middle, accesses = front ++ .write Register.doorbell 1 :: behind ∧
          window.Performs device (earlier.flatMap Prod.snd ++ front) middle ∧
          HandedOver ⟨header, [4, 5]⟩ middle.registers := by
  intro response device window header queries
  have keeps : KeepsWrites window DeviceState.registers :=
    response.keepsWrites_window .byManagement 2
  have short : [4, 5].length ≤ Request.maxWords := by decide
  obtain ⟨asked, _, shows⟩ := window.history_handsOver 3 keeps queries device
  obtain ⟨earlier, last, split, _, here⟩ :=
    List.map_eq_append_iff.mp (asked.trans (List.take_append_drop 2 queries).symm)
  obtain ⟨⟨query, accesses⟩, rfl, same⟩ := List.map_eq_singleton_iff.mp here
  obtain rfl : query = ⟨header, [4, 5]⟩ := same
  obtain ⟨front, behind, middle, rings, _, performs, shown⟩ :=
    shows earlier _ accesses [] split short
  exact ⟨keeps, short, earlier, accesses, split, front, behind, middle, rings, performs, shown⟩

end Window

end NicScope
