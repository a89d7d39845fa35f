/-
This file proves what becomes of a run when a request fails. A request that fails, for whatever
reason and in whatever part of the command, is the last one of the run, and the number that the
run returns is that of its failure, however often the error was put into other words on its way.
The same holds where all requests of an attempt succeed but what they brought cannot be decoded.
-/

import NicScope.Proofs.Session.Attempts

namespace NicScope

variable {τ : Type}

/-- Each step of some attempts is a step of one of them. -/
theorem Attempt.exists_of_flatMap_steps {attempts : List Attempt}
    {earlier later : List (Query × Reply)} {step : Query × Reply}
    (split : attempts.flatMap Attempt.steps = earlier ++ step :: later) :
    ∃ before attempt after front behind, attempts = before ++ attempt :: after ∧
      attempt.steps = front ++ step :: behind ∧
      earlier = before.flatMap Attempt.steps ++ front ∧
      later = behind ++ after.flatMap Attempt.steps := by
  induction attempts generalizing earlier with
  | nil => exact absurd split.symm (by simp)
  | cons first others inductionHypothesis =>
    rw [List.flatMap_cons] at split
    rcases List.append_eq_append_iff.mp split with
      ⟨front, rfl, rest⟩ | ⟨behind, steps, rest⟩
    · obtain ⟨before, attempt, after, here, behind, rfl, steps, rfl, rfl⟩ :=
        inductionHypothesis rest
      refine ⟨first :: before, attempt, after, here, behind, rfl, steps, ?_, rfl⟩
      rw [List.flatMap_cons, List.append_assoc]
    · cases behind with
      | nil =>
        have later : others.flatMap Attempt.steps = [] ++ step :: later := rest.symm
        obtain ⟨before, attempt, after, front, behind, rfl, taken, none, rfl⟩ :=
          inductionHypothesis later
        refine ⟨first :: before, attempt, after, front, behind, rfl, taken, ?_, rfl⟩
        rw [List.flatMap_cons, List.append_assoc, ← none, steps, List.append_nil, List.append_nil]
      | cons head behind =>
        obtain ⟨rfl, rfl⟩ := List.cons.inj rest
        exact ⟨[], first, others, earlier, behind, rfl, steps, rfl, rfl⟩

namespace Tool

/-- A run that requests something converses with the device, and its command carries out its plan
in attempts. A failed request is the last one of the run, as is an attempt whose result cannot be
decoded, and the run returns the number of the failure. -/
theorem run_of_failed_request (tool : Tool) (channel : Channel τ) (arguments : List String)
    (session : Session τ) :
    (tool.requests channel arguments session ≠ [] →
      ∃ command context target plan,
        tool.Converses channel arguments session command context ∧
          command.Does context target plan) ∧
    ∀ command context target plan, tool.Converses channel arguments session command context →
      command.Does context target plan →
        ∃ (attempts : List Attempt) (outcome : Except Error Dump),
          tool.requests channel arguments session = attempts.flatMap Attempt.steps ∧
          plan.Course attempts outcome ∧
          (∀ earlier query reply later,
            tool.requests channel arguments session = earlier ++ (query, reply) :: later →
              ∃ before attempt after front behind, attempts = before ++ attempt :: after ∧
                attempt.steps = front ++ (query, reply) :: behind ∧
                earlier = before.flatMap Attempt.steps ++ front ∧
                ∀ number, attempt.FailsAt front reply number →
                  later = [] ∧ tool.FailsWith channel arguments session number) ∧
          ∀ before attempt after, attempts = before ++ attempt :: after → attempt.Undecodable →
            after = [] ∧ tool.FailsWith channel arguments session (-22) := by
  constructor
  · intro some
    obtain ⟨command, context, converses⟩ := exists_converses some
    obtain ⟨target, plan, does⟩ := Command.exists_does converses.admits.listed context
    exact ⟨command, context, target, plan, converses, does⟩
  · intro command context target plan converses does
    obtain ⟨attempts, outcome, split, course, fails⟩ := converses.attempts does
    have told : plan.All fun _ wording => wording.Told :=
      does.reads.all.mono fun _ _ good => good.2
    refine ⟨attempts, outcome, split, course, ?_, ?_⟩
    · intro earlier query reply later taken
      rw [split] at taken
      obtain ⟨before, attempt, after, front, behind, rfl, steps, rfl, rfl⟩ :=
        Attempt.exists_of_flatMap_steps taken
      refine ⟨before, attempt, after, front, behind, rfl, steps, rfl, fun number failure => ?_⟩
      obtain ⟨rfl, rfl, ends⟩ := course.ends_of_fails told steps failure
      exact ⟨rfl, fails number ends⟩
    · rintro before attempt after rfl undecodable
      obtain ⟨last, ends⟩ := course.ends_of_undecodable told undecodable
      exact ⟨last, fails (-22) ends⟩

/-! ### Runs that fail -/

/-- The sizes of the tables of a port, as its device gives them. -/
def sizesReply : Reply :=
  .ok ⟨0, 0, [0x4401, 0, 0, 2, 2, 4, 0x80008, 0x80003, 1] ++ List.replicate 11 0⟩

def addressFeature : Feature Port.View := ⟨"mac", 1, true, .addresses⟩

/-- The promiscuity of 257 functions. -/
def crowdedReply : Reply :=
  .ok ⟨0, 0, [0x401, 0, 0, 0x101]⟩

/-- The query for the promiscuity of the functions. -/
def promiscuityQuery : Query :=
  queryOf (Port.header 4) (Port.blockRequest ⟨0, 0xbd0000⟩ 0)

/-- The promiscuity of 257 functions is delivered, and cannot be decoded. -/
theorem undecodable_crowded :
    (Attempt.mk (Port.recordOrder PromiscuityTable ⟨0, 0xbd0000⟩ 4)
      [(promiscuityQuery, crowdedReply)]).Undecodable := by
  have transcript : (Fetch.blob EntryHead Port.commandName (Port.header 4)
      (Record.size PromiscuityTable) (Port.blockRequest ⟨0, 0xbd0000⟩)).run.transcript
        ScriptedReplies.answer (fun _ replies => replies) ⟨[crowdedReply], []⟩ =
      [(promiscuityQuery, crowdedReply)] := by decide +kernel
  have result : (Fetch.blob EntryHead Port.commandName (Port.header 4)
      (Record.size PromiscuityTable) (Port.blockRequest ⟨0, 0xbd0000⟩)).run.result
        ScriptedReplies.answer (fun _ replies => replies) ⟨[crowdedReply], []⟩ =
      .ok (Bytes.resize 1028 [1, 1, 0, 0]) := by decide +kernel
  refine ⟨.illegalFunctionCount 257, Bytes.resize 1028 [1, 1, 0, 0], ?_, by decide +kernel⟩
  have held := Dialogue.held_transcript ScriptedReplies.answer
    (fun _ replies => replies) (Fetch.blob EntryHead Port.commandName (Port.header 4)
      (Record.size PromiscuityTable) (Port.blockRequest ⟨0, 0xbd0000⟩)).run ⟨[crowdedReply], []⟩
  rw [transcript, result] at held
  exact held

/-- A device that gives the sizes and then fails ends the run with its error, and one that gives
what cannot be decoded ends it with that of an invalid argument. -/
theorem run_of_failed_request_portLine :
    let channel := Channel.direct ScriptedReplies.answer
    bareTool.FailsWith channel (portLine ["mac"])
        (scripted bareHost [sizesReply, .error (.system ⟨5⟩)]) (-5) ∧
      bareTool.FailsWith channel (portLine ["promisc"])
        (scripted bareHost [crowdedReply]) (-22) := by
  intro channel
  constructor
  · have converses : bareTool.Converses channel (portLine ["mac"])
        (scripted bareHost [sizesReply, .error (.system ⟨5⟩)]) portCommand
        (portContext addressFeature none) :=
      ⟨admits_portLine (by decide) (by rfl) (by decide +kernel), rfl⟩
    have requested : bareTool.requests channel (portLine ["mac"])
        (scripted bareHost [sizesReply, .error (.system ⟨5⟩)]) =
        [(queryOf (Port.header 0) (Port.blockRequest ⟨0, 0xbd0000⟩ 0), sizesReply)] ++
          (queryOf (Port.header 1) (Port.pageRequest ⟨0, 0xbd0000⟩ 1 0), .error (.system ⟨5⟩)) ::
            [] := by decide +kernel
    obtain ⟨_, _, _, _, failed, _⟩ := (run_of_failed_request bareTool channel (portLine ["mac"])
      (scripted bareHost [sizesReply, .error (.system ⟨5⟩)])).2 _ _ _ _ converses (.port _)
    obtain ⟨_, _, _, _, _, _, _, _, ends⟩ := failed _ _ _ _ requested
    exact (ends _ (.unanswered rfl)).2
  · have converses : bareTool.Converses channel (portLine ["promisc"])
        (scripted bareHost [crowdedReply]) portCommand (portContext promiscuityFeature none) :=
      ⟨admits_portLine (by decide) (by rfl) (by decide +kernel), rfl⟩
    have requested : bareTool.requests channel (portLine ["promisc"])
        (scripted bareHost [crowdedReply]) = [(promiscuityQuery, crowdedReply)] := by
      decide +kernel
    obtain ⟨attempts, _, split, course, _, undecoded⟩ :=
      (run_of_failed_request bareTool channel (portLine ["promisc"])
        (scripted bareHost [crowdedReply])).2 _ _ _ _ converses (.port _)
    obtain ⟨wording, next, reads⟩ : ∃ wording next,
        Port.plan (portContext promiscuityFeature none) =
          .read (Port.recordOrder PromiscuityTable ⟨0, 0xbd0000⟩ 4) wording next := ⟨_, _, rfl⟩
    obtain ⟨steps, after, rfl, held⟩ := course.first reads
    -- the only request is one for the first order, which asks for something first
    have taken : steps = [(promiscuityQuery, crowdedReply)] := by
      obtain ⟨query, next, asks⟩ : ∃ query next,
          (Port.recordOrder PromiscuityTable ⟨0, 0xbd0000⟩ 4).exchange.run = .ask query next :=
        ⟨_, _, rfl⟩
      obtain ⟨_, held⟩ := held
      rw [asks] at held
      cases held with
      | ask rest =>
        rw [requested, List.flatMap_cons, List.cons_append] at split
        obtain ⟨here, none⟩ := List.cons.inj split
        rw [← here, (List.append_eq_nil_iff.mp none.symm).1]
    subst taken
    exact (undecoded [] _ after rfl undecodable_crowded).2

end Tool

end NicScope
