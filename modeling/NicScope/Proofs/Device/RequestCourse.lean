/-
This file proves what course a request takes at the register window, whatever is read
there. A request that is too long touches nothing. Any other is laid into the window and
the first round is waited for; if it completes, the stated length is read, and if that is
not too long either, the words of each round in turn, until a round does not complete.
-/

import NicScope.Proofs.Device.Accesses

namespace NicScope

/-- The accesses of rounds, each after the write that names it; the first of them is
`round`. -/
def Access.rounds : (round : Nat) → List (List Access) → List Access
  | _, [] => []
  | round, accesses :: later =>
    .write Register.round (UInt32.ofNat round) :: (accesses ++ rounds (round + 1) later)

/-- The reads behind the first round of a response that is not too long. -/
def Access.answer (stated version : UInt32) (words : List UInt32) : List Access :=
  .read Register.responseWords stated :: .read Register.responseVersion version ::
    readsFrom Register.responseData words

/-- The rounds that a response of `words` words takes. -/
def roundsFor (words : Nat) : Nat :=
  (words + (wordsPerRound - 1)) / wordsPerRound

/-- The courses that reading `left` rounds from `round` on can take, behind the words read
before: the accesses of each round, and the outcome. -/
inductive RoundsCourse (polls : Nat) (first : Completion) (version : UInt32) (total : Nat) :
    (left round : Nat) → (words : List UInt32) → List (List Access) → Window.Outcome → Prop
  | finished {round : Nat} {words : List UInt32} :
      RoundsCourse polls first version total 0 round words [] ⟨.ok ⟨0, version, words⟩, []⟩
  | broken {left round : Nat} {words codes : List UInt32} {status : Completion}
      (awaited : Awaited polls (codes.map Completion.ofCode) status)
      (incomplete : status.isComplete = false) :
      RoundsCourse polls first version total (left + 1) round words
        [Access.starting first ++ Access.looksAt codes]
        ⟨.ok ⟨-1, version, words⟩,
          [.error ("multi round failed, Error code:" ++ Numeral.decimal status.code.toNat ++ ".")]⟩
  | read {left round : Nat} {words codes more : List UInt32} {status : Completion}
      {later : List (List Access)} {outcome : Window.Outcome}
      (awaited : Awaited polls (codes.map Completion.ofCode) status)
      (complete : status.isComplete = true)
      (length : more.length = min wordsPerRound (total - round * wordsPerRound))
      (rest : RoundsCourse polls first version total left (round + 1) (words ++ more) later
        outcome) :
      RoundsCourse polls first version total (left + 1) round words
        ((Access.starting first ++
          (Access.looksAt codes ++ Access.readsFrom Register.responseData more)) :: later)
        outcome

/-- The courses that a request can take: the accesses of each round, behind those that lay
the request into the window, and the outcome. -/
inductive RequestCourse (polls : Nat) : List (List Access) → Window.Outcome → Prop
  | failed {codes : List UInt32} {first : Completion}
      (awaited : Awaited polls (codes.map Completion.ofCode) first)
      (incomplete : first.isComplete = false) :
      RequestCourse polls [Access.ringing ++ Access.looksAt codes]
        ⟨.error (.transport first), []⟩
  | overlong {codes : List UInt32} {first : Completion} {stated : UInt32}
      (awaited : Awaited polls (codes.map Completion.ofCode) first)
      (complete : first.isComplete = true) (long : maxResponseWords < stated.toNat) :
      RequestCourse polls
        [Access.ringing ++ (Access.looksAt codes ++ [.read Register.responseWords stated])]
        ⟨.error (.responseTooLarge stated), []⟩
  | read {codes words : List UInt32} {first : Completion} {stated version : UInt32}
      {later : List (List Access)} {outcome : Window.Outcome}
      (awaited : Awaited polls (codes.map Completion.ofCode) first)
      (complete : first.isComplete = true) (short : stated.toNat ≤ maxResponseWords)
      (length : words.length = min wordsPerRound stated.toNat)
      (rest : RoundsCourse polls first version stated.toNat (roundsFor stated.toNat - 1) 1 words
        later outcome) :
      RequestCourse polls
        ((Access.ringing ++ (Access.looksAt codes ++ Access.answer stated version words)) :: later)
        outcome

namespace Window

variable {σ : Type} (window : Window σ)

theorem follows_readRounds (polls : Nat) (first : Completion) (version : UInt32)
    (total left round : Nat) (words : List UInt32) :
    window.Follows (window.readRounds polls first version total left round words)
      (window.recording.readRounds polls first version total left round words)
      fun accesses outcome => ∃ rounds, accesses = Access.rounds round rounds ∧
        RoundsCourse polls first version total left round words rounds outcome := by
  induction left generalizing round words with
  | zero =>
    refine (window.follows_pure _).mono ?_
    rintro _ _ ⟨rfl, rfl⟩
    exact ⟨[], rfl, .finished⟩
  | succ left inductionHypothesis =>
    refine ((window.follows_nextRound first round).bind fun _ =>
      (window.follows_awaitCompletion polls).bind fun status =>
        ((window.follows_readFrom Register.responseData
            (min wordsPerRound (total - round * wordsPerRound))).bind fun more =>
          inductionHypothesis (round + 1) (words ++ more)).ite
            (window.follows_pure _)).mono ?_
    rintro _ outcome ⟨_, _, _, rfl, rfl, _, _, status, rfl, ⟨codes, rfl, awaited⟩, follows⟩
    split at follows
    next complete =>
      obtain ⟨_, _, more, rfl, ⟨length, rfl⟩, later, rfl, rest⟩ := follows
      refine ⟨_ :: later, ?_, .read awaited complete length rest⟩
      simp only [Access.rounds, List.cons_append, List.append_assoc]
    next incomplete =>
      obtain ⟨rfl, rfl⟩ := follows
      refine ⟨[_], ?_, .broken awaited (eq_false_of_ne_true incomplete)⟩
      simp only [Access.rounds, List.cons_append, List.append_nil]

theorem follows_readResponse (polls : Nat) (first : Completion) :
    window.Follows (window.readResponse polls first) (window.recording.readResponse polls first)
      fun accesses outcome => ∃ stated,
        (maxResponseWords < stated.toNat ∧ accesses = [.read Register.responseWords stated] ∧
          outcome = ⟨.error (.responseTooLarge stated), []⟩) ∨
        (stated.toNat ≤ maxResponseWords ∧ ∃ version words later,
          words.length = min wordsPerRound stated.toNat ∧
          accesses = Access.answer stated version words ++ Access.rounds 1 later ∧
          RoundsCourse polls first version stated.toNat (roundsFor stated.toNat - 1) 1 words later
            outcome) := by
  refine ((window.follows_read Register.responseWords).bind fun stated =>
    (window.follows_pure _).ite
      ((window.follows_read Register.responseVersion).bind fun version =>
        (window.follows_readFrom Register.responseData
            (min wordsPerRound stated.toNat)).bind fun words =>
          window.follows_readRounds polls first version stated.toNat
            (roundsFor stated.toNat - 1) 1 words)).mono ?_
  rintro _ outcome ⟨_, _, stated, rfl, rfl, follows⟩
  refine ⟨stated, ?_⟩
  split at follows
  next long =>
    obtain ⟨rfl, rfl⟩ := follows
    exact .inl ⟨long, rfl, rfl⟩
  next short =>
    obtain ⟨_, _, version, rfl, rfl, _, _, words, rfl, ⟨length, rfl⟩, later, rfl, rest⟩ := follows
    exact .inr ⟨Nat.not_lt.mp short, version, words, later, length, rfl, rest⟩

/-- A request that is too long touches nothing; any other lays itself into the window, and
its rounds are a course. -/
theorem follows_request (polls : Nat) (query : Query) :
    window.Follows (window.request polls query) (window.recording.request polls query)
      fun accesses outcome =>
        if query.words.length > Request.maxWords then
          accesses = [] ∧ outcome = ⟨.error (.requestTooLarge query.words.length), []⟩
        else ∃ rounds, accesses = Access.placing query ++ Access.rounds 0 rounds ∧
          RequestCourse polls rounds outcome := by
  refine ((window.follows_pure _).ite ((window.follows_place query).bind fun _ =>
    window.follows_ring.bind fun _ => (window.follows_awaitCompletion polls).bind fun first =>
      (window.follows_readResponse polls first).ite (window.follows_pure _))).mono ?_
  intro accesses outcome follows
  split at follows
  next long => rwa [if_pos long]
  next short =>
    rw [if_neg short]
    obtain ⟨_, _, _, rfl, rfl, _, _, _, rfl, rfl, _, _, first, rfl, ⟨codes, rfl, awaited⟩,
      answer⟩ := follows
    split at answer
    next complete =>
      rcases answer with ⟨stated, ⟨long, rfl, rfl⟩ | ⟨short, version, words, later, length, rfl,
        rest⟩⟩
      · refine ⟨[_], ?_, .overlong awaited complete long⟩
        simp only [Access.rounds, List.cons_append, List.append_assoc, List.nil_append,
          List.append_nil]
        rfl
      · refine ⟨_ :: later, ?_, .read awaited complete short length rest⟩
        simp only [Access.rounds, List.cons_append, List.append_assoc, List.nil_append]
        rfl
    next incomplete =>
      obtain ⟨rfl, rfl⟩ := answer
      refine ⟨[_], ?_, .failed awaited (eq_false_of_ne_true incomplete)⟩
      simp only [Access.rounds, List.cons_append, List.append_assoc, List.nil_append,
        List.append_nil]
      rfl

/-- The accesses of a request lead the window from one state to another, and they are a course
of the request. -/
theorem request_course (polls : Nat) (query : Query) (state : σ) :
    window.Performs state (window.accesses polls query state)
        (window.request polls query state).2 ∧
      if query.words.length > Request.maxWords then
        window.accesses polls query state = [] ∧
          (window.request polls query state).1 =
            ⟨.error (.requestTooLarge query.words.length), []⟩
      else ∃ rounds, window.accesses polls query state =
          Access.placing query ++ Access.rounds 0 rounds ∧
        RequestCourse polls rounds (window.request polls query state).1 := by
  obtain ⟨taken, recorded, performs, follows⟩ := window.follows_request polls query state []
  have same : window.accesses polls query state = taken :=
    congrArg (fun step => step.2.2) recorded
  rw [same]
  exact ⟨performs, follows⟩

end Window

end NicScope
