/-
This file proves how a request ends, whatever the register window holds: every access is
inside the window, each round is looked at a bounded number of times, and there are five
endings, which the accesses tell apart. A request that is too long touches nothing, a first
round that does not complete is an error, and so is a response that is too long; otherwise
the words of all rounds arrive, or those of the rounds before one that does not complete,
after which nothing is accessed any more.
-/

import NicScope.Proofs.Device.Rounds

namespace NicScope

open Access

namespace RoundsCourse

variable {polls total left round : Nat} {first : Completion} {version : UInt32}
  {words : List UInt32} {rounds : List (List Access)} {outcome : Window.Outcome}

/-- Rounds after the first read nothing in front of the words of the response. -/
theorem valuesRead_flatten
    (course : RoundsCourse polls first version total left round words rounds outcome)
    {register : Nat} (before : register < Register.responseData) :
    valuesRead register rounds.flatten = [] := by
  have other : register ≠ Register.completion :=
    Nat.ne_of_lt (Nat.lt_trans before (by decide))
  induction course with
  | finished => rfl
  | @broken left round words codes status awaited incomplete =>
    rw [List.flatten_singleton, ← List.append_nil (looksAt codes), valuesRead_round,
      valuesRead_looksAt_other other]
    rfl
  | read awaited complete length _ inductionHypothesis =>
    rw [List.flatten_cons, valuesRead_append, valuesRead_round, valuesRead_looksAt_other other,
      valuesRead_readsFrom_of_outside (.inl before), inductionHypothesis]
    rfl

/-- Reading rounds ends with all of them and the whole response, or with one that does not
complete, behind which nothing is accessed. -/
theorem ends
    (course : RoundsCourse polls first version total left round words rounds outcome)
    (aligned : words.length = min total (round * wordsPerRound))
    (remaining : left = roundsFor total - round) :
    (rounds.length = left ∧ (∀ accesses ∈ rounds, (status accesses).isComplete = true) ∧
        outcome.reply = .ok ⟨0, version, words ++ wordsRead rounds.flatten⟩ ∧
        (words ++ wordsRead rounds.flatten).length = total) ∨
      ∃ before last codes, rounds = before ++ [last] ∧ before.length < left ∧
        (∀ accesses ∈ before, (status accesses).isComplete = true) ∧
        (status last).isComplete = false ∧ last = starting first ++ looksAt codes ∧
        outcome.reply = .ok ⟨-1, version, words ++ wordsRead rounds.flatten⟩ ∧
        (words ++ wordsRead rounds.flatten).length = (round + before.length) * wordsPerRound := by
  induction course with
  | @finished round words =>
    refine .inl ⟨rfl, fun _ member => absurd member List.not_mem_nil, ?_, ?_⟩
    · rw [List.flatten_nil, wordsRead, List.filterMap_nil, List.append_nil]
    · rw [List.flatten_nil, wordsRead, List.filterMap_nil, List.append_nil]
      simp only [roundsFor, wordsPerRound] at aligned remaining
      omega
  | @broken left round words codes status awaited incomplete =>
    obtain ⟨_, comes, silent⟩ := waited_silent first awaited
    refine .inr ⟨[], _, codes, rfl, Nat.succ_pos _, fun _ member => absurd member List.not_mem_nil,
      ?_, rfl, ?_, ?_⟩
    · rw [comes]
      exact incomplete
    · rw [List.flatten_singleton, silent, List.append_nil]
    · rw [List.flatten_singleton, silent, List.append_nil, List.length_nil]
      simp only [roundsFor, wordsPerRound] at aligned remaining ⊢
      omega
  | @read left round words codes more status later outcome awaited complete length rest
      inductionHypothesis =>
    have fits := length_le_wordsPerRound length
    have comes := (waited_round first _ awaited (plain_readsFrom fits)
      (looks_readsFrom fits)).2
    have data (later : List (List Access)) :
        words ++ wordsRead (List.flatten ((starting first ++
          (looksAt codes ++ readsFrom Register.responseData more)) :: later)) =
        words ++ more ++ wordsRead later.flatten := by
      rw [List.flatten_cons, wordsRead_append, wordsRead_round, wordsRead_responseData fits,
        List.append_assoc]
    rw [data]
    have step := inductionHypothesis
      (by
        rw [List.length_append, aligned, length]
        simp only [wordsPerRound]
        omega)
      (by omega)
    rcases step with ⟨count, completes, gives, whole⟩ |
      ⟨before, last, codes', rfl, fewer, completes, incomplete, silent, gives, part⟩
    · refine .inl ⟨congrArg Nat.succ count, ?_, gives, whole⟩
      intro accesses member
      rcases List.mem_cons.mp member with rfl | member
      · rw [comes]
        exact complete
      · exact completes accesses member
    · refine .inr ⟨_ :: before, last, codes', rfl, Nat.succ_lt_succ fewer, ?_, incomplete, silent,
        gives, ?_⟩
      · intro accesses member
        rcases List.mem_cons.mp member with rfl | member
        · rw [comes]
          exact complete
        · exact completes accesses member
      · rw [part, List.length_cons, Nat.add_assoc, Nat.add_comm 1]

end RoundsCourse

/-! ### Endings -/

/-- How a request ends, told by what is accessed. -/
inductive RequestEnding (query : Query) (accesses : List Access) : Reply → Prop
  /-- The request has too many words, and nothing is touched. -/
  | tooLong (long : Request.maxWords < query.words.length) (untouched : accesses = []) :
      RequestEnding query accesses (.error (.requestTooLarge query.words.length))
  /-- The first round does not complete, and nothing is accessed after that. -/
  | unanswered {first : List Access} (short : query.words.length ≤ Request.maxWords)
      (opened : roundsOf accesses = [first]) (incomplete : (status first).isComplete = false)
      (silent : ∃ codes, first = ringing ++ looksAt codes) :
      RequestEnding query accesses (.error (.transport (status first)))
  /-- The first round completes, but too long a response is stated. -/
  | overlong {first : List Access} {stated : UInt32}
      (short : query.words.length ≤ Request.maxWords) (opened : roundsOf accesses = [first])
      (complete : (status first).isComplete = true)
      (states : valuesRead Register.responseWords accesses = [stated])
      (long : maxResponseWords < stated.toNat) :
      RequestEnding query accesses (.error (.responseTooLarge stated))
  /-- All rounds complete, and as many words are read as are stated. -/
  | whole {stated version : UInt32} {words : List UInt32}
      (short : query.words.length ≤ Request.maxWords)
      (opened : (roundsOf accesses).length = max 1 (roundsFor stated.toNat))
      (complete : ∀ round ∈ roundsOf accesses, (status round).isComplete = true)
      (states : valuesRead Register.responseWords accesses = [stated])
      (fits : stated.toNat ≤ maxResponseWords)
      (carries : valuesRead Register.responseVersion accesses = [version])
      (read : wordsRead accesses = words) (length : words.length = stated.toNat) :
      RequestEnding query accesses (.ok ⟨0, version, words⟩)
  /-- A later round is the first that does not complete; the words of all rounds before it
  are read, and nothing is accessed after it. -/
  | broken {stated version : UInt32} {words : List UInt32} {before : List (List Access)}
      {last : List Access} (short : query.words.length ≤ Request.maxWords)
      (opened : roundsOf accesses = before ++ [last]) (later : 1 ≤ before.length)
      (missing : before.length < roundsFor stated.toNat)
      (complete : ∀ round ∈ before, (status round).isComplete = true)
      (incomplete : (status last).isComplete = false)
      (silent : ∃ first codes, last = starting first ++ looksAt codes)
      (states : valuesRead Register.responseWords accesses = [stated])
      (fits : stated.toNat ≤ maxResponseWords)
      (carries : valuesRead Register.responseVersion accesses = [version])
      (read : wordsRead accesses = words) (length : words.length = before.length * wordsPerRound) :
      RequestEnding query accesses (.ok ⟨-1, version, words⟩)

/-- What a request accesses and how it ends, whatever is read in the register window. -/
structure BoundedRequest (polls : Nat) (query : Query) (accesses : List Access) (reply : Reply) :
    Prop where
  inside : ∀ access ∈ accesses, access.register < Register.count
  /-- The status of a round is the first one set among the looks at it, of which there are as
  many as are allowed if none is set. -/
  awaited : ∀ round ∈ roundsOf accesses, Awaited polls (looks round) (status round)
  polled : ∀ round ∈ roundsOf accesses, (looks round).length ≤ polls
  ends : RequestEnding query accesses reply
  tooLong : (∃ words, reply = .error (.requestTooLarge words)) ↔
    Request.maxWords < query.words.length
  unanswered : (∃ status, reply = .error (.transport status)) ↔
    ∃ first, (roundsOf accesses).head? = some first ∧ (status first).isComplete = false
  overlong : (∃ words, reply = .error (.responseTooLarge words)) ↔
    ∃ first stated, (roundsOf accesses).head? = some first ∧ (status first).isComplete = true ∧
      valuesRead Register.responseWords accesses = [stated] ∧ maxResponseWords < stated.toNat

namespace RequestCourse

variable {polls : Nat} {rounds : List (List Access)} {outcome : Window.Outcome} {query : Query}

theorem ending (course : RequestCourse polls rounds outcome)
    (short : query.words.length ≤ Request.maxWords) :
    RequestEnding query (placing query ++ Access.rounds 0 rounds) outcome.reply := by
  have opened := course.roundsOf_eq short
  have reads := fun register => reads_request short rounds register
  cases course with
  | failed awaited incomplete =>
    obtain ⟨_, comes, _⟩ := waited_silent .byTrusted awaited
    rw [starting_byTrusted] at comes
    rw [← comes] at incomplete ⊢
    exact .unanswered short opened incomplete ⟨_, rfl⟩
  | @overlong codes first stated awaited complete long =>
    obtain ⟨_, comes⟩ := waited_round .byTrusted _ awaited (plain_stated stated) rfl
    rw [starting_byTrusted] at comes
    refine .overlong short opened (comes ▸ complete) ?_ long
    rw [(reads _).1, List.flatten_singleton, ← starting_byTrusted, valuesRead_round,
      valuesRead_looksAt_other (by decide)]
    rfl
  | @read codes words first stated version later outcome awaited complete fits length rest =>
    have bound := length_le_wordsPerRound length
    obtain ⟨_, comes⟩ := waited_round .byTrusted _ awaited (plain_answer stated version bound)
      (looks_answer stated version bound)
    rw [starting_byTrusted] at comes
    have value {register : Nat} (before : register < Register.responseData) :
        valuesRead register (placing query ++ Access.rounds 0
          ((ringing ++ (looksAt codes ++ answer stated version words)) :: later)) =
        valuesRead register [.read Register.responseWords stated,
          .read Register.responseVersion version] := by
      have other : register ≠ Register.completion :=
        Nat.ne_of_lt (Nat.lt_trans before (by decide))
      rw [(reads register).1, List.flatten_cons, valuesRead_append, ← starting_byTrusted,
        valuesRead_round, valuesRead_looksAt_other other, valuesRead_answer _ _ before,
        rest.valuesRead_flatten before, List.append_nil, List.nil_append]
    have data : wordsRead (placing query ++ Access.rounds 0
        ((ringing ++ (looksAt codes ++ answer stated version words)) :: later)) =
        words ++ wordsRead later.flatten := by
      rw [(reads 0).2, List.flatten_cons, wordsRead_append, ← starting_byTrusted,
        wordsRead_round, wordsRead_answer _ _ bound]
    have aligned : words.length = min stated.toNat (1 * wordsPerRound) := by
      rw [length, Nat.one_mul, Nat.min_comm]
    rcases rest.ends aligned rfl with ⟨count, completes, gives, whole⟩ |
      ⟨before, last, codes', rfl, fewer, completes, incomplete, silent, gives, part⟩
    · rw [gives]
      refine .whole short ?_ ?_ (value (by decide)) fits (value (by decide)) data whole
      · rw [opened, List.length_cons, count]
        omega
      · rw [opened]
        intro round member
        rcases List.mem_cons.mp member with rfl | member
        · rw [comes]
          exact complete
        · exact completes round member
    · rw [gives]
      refine .broken short (show _ = (_ :: before) ++ [last] from opened) ?_ ?_ ?_ incomplete
        ⟨first, codes', silent⟩ (value (by decide)) fits (value (by decide)) data ?_
      · exact Nat.succ_pos _
      · rw [List.length_cons]
        omega
      · intro round member
        rcases List.mem_cons.mp member with rfl | member
        · rw [comes]
          exact complete
        · exact completes round member
      · rw [part, List.length_cons, Nat.add_comm 1]

end RequestCourse

namespace RequestEnding

variable {query : Query} {accesses : List Access} {reply : Reply}

theorem tooLong_iff (ends : RequestEnding query accesses reply) :
    (∃ words, reply = .error (.requestTooLarge words)) ↔
      Request.maxWords < query.words.length := by
  cases ends with
  | tooLong long => exact iff_of_true ⟨_, rfl⟩ long
  | unanswered short | overlong short | whole short | broken short =>
    refine iff_of_false ?_ (Nat.not_lt.mpr short)
    rintro ⟨_, same⟩
    cases same

/-- Where a response arrives, in whole or in part, the first round has completed and no more
words are stated than there may be. -/
theorem of_ok {response : Response} (ends : RequestEnding query accesses (.ok response)) :
    (∀ first, (roundsOf accesses).head? = some first → (status first).isComplete = true) ∧
      ∃ stated, valuesRead Register.responseWords accesses = [stated] ∧
        stated.toNat ≤ maxResponseWords := by
  cases ends with
  | whole _ _ complete states fits =>
    exact ⟨fun first found => complete first (List.mem_of_mem_head? found), _, states, fits⟩
  | @broken stated version words before last _ opened later _ complete _ _ states fits =>
    refine ⟨fun first found => complete first ?_, _, states, fits⟩
    obtain ⟨head, rest, rfl⟩ := List.exists_cons_of_length_pos later
    rw [opened, List.cons_append, List.head?_cons] at found
    exact List.mem_of_mem_head? found

theorem unanswered_iff (ends : RequestEnding query accesses reply) :
    (∃ status, reply = .error (.transport status)) ↔
      ∃ first, (roundsOf accesses).head? = some first ∧
        (Access.status first).isComplete = false := by
  constructor
  · rintro ⟨_, rfl⟩
    cases ends with
    | @unanswered first _ opened incomplete => exact ⟨first, by rw [opened]; rfl, incomplete⟩
  · rintro ⟨first, found, incomplete⟩
    cases reply with
    | ok response => cases incomplete.symm.trans (ends.of_ok.1 first found)
    | error cause =>
      cases ends with
      | tooLong _ untouched =>
        subst untouched
        cases found
      | unanswered => exact ⟨_, rfl⟩
      | overlong _ opened complete =>
        rw [opened, List.head?_cons] at found
        cases found
        cases incomplete.symm.trans complete

theorem overlong_iff (ends : RequestEnding query accesses reply) :
    (∃ words, reply = .error (.responseTooLarge words)) ↔
      ∃ first stated, (roundsOf accesses).head? = some first ∧
        (status first).isComplete = true ∧
        valuesRead Register.responseWords accesses = [stated] ∧
        maxResponseWords < stated.toNat := by
  constructor
  · rintro ⟨stated, rfl⟩
    cases ends with
    | @overlong first _ _ opened complete states long =>
      exact ⟨first, stated, by rw [opened]; rfl, complete, states, long⟩
  · rintro ⟨first, stated, found, complete, states, long⟩
    cases reply with
    | ok response =>
      obtain ⟨_, other, given, fits⟩ := ends.of_ok
      cases given.symm.trans states
      exact absurd long (Nat.not_lt.mpr fits)
    | error cause =>
      cases ends with
      | tooLong _ untouched =>
        subst untouched
        cases found
      | unanswered _ opened incomplete =>
        rw [opened, List.head?_cons] at found
        cases found
        cases incomplete.symm.trans complete
      | overlong => exact ⟨_, rfl⟩

end RequestEnding

namespace Window

variable {σ : Type} (window : Window σ) (polls : Nat) (query : Query) (state : σ)

/-- Whatever is read in the window, a request stays inside it, looks at each round a bounded
number of times and has one of five endings. -/
theorem request_bounded :
    BoundedRequest polls query (window.accesses polls query state)
      (window.request polls query state).1.reply := by
  have course := (window.request_course polls query state).2
  split at course
  next long =>
    obtain ⟨untouched, gives⟩ := course
    rw [untouched, gives]
    have ends : RequestEnding query [] (.error (.requestTooLarge query.words.length)) :=
      .tooLong long rfl
    exact {
      inside := fun _ member => absurd member List.not_mem_nil
      awaited := fun _ member => absurd member List.not_mem_nil
      polled := fun _ member => absurd member List.not_mem_nil
      ends := ends
      tooLong := ends.tooLong_iff
      unanswered := ends.unanswered_iff
      overlong := ends.overlong_iff }
  next short =>
    obtain ⟨rounds, laid, course⟩ := course
    have short := Nat.not_lt.mp short
    rw [laid]
    have opened := course.roundsOf_eq short
    have ends := course.ending short
    exact {
      inside := course.inside short
      awaited := fun round member => (course.waited round (opened ▸ member)).awaited
      polled := fun round member => (course.waited round (opened ▸ member)).awaited.length_le
      ends := ends
      tooLong := ends.tooLong_iff
      unanswered := ends.unanswered_iff
      overlong := ends.overlong_iff }

end Window

end NicScope
