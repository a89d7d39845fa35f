/-
This file says what the requests of a run are for. A run requests something only if its command
line is admitted and the channel opens. Then its command carries out its plan: whatever is
requested belongs to attempts that it makes one after another, each to read one thing about its
target; and if the plan ends with an error that no help follows on, the run fails with the number
of that error.
-/

import NicScope.Proofs.Command.Orders
import NicScope.Proofs.Session.Stages

namespace NicScope

variable {τ : Type}

namespace Tool

variable {tool : Tool} {channel : Channel τ} {arguments : List String} {session : Session τ}

theorem mem_of_lookup {wanted : Option String} {command : Command}
    (found : wanted.bind tool.lookup = some command) : command ∈ commands := by
  obtain ⟨name, _, found⟩ := Option.bind_eq_some_iff.mp found
  exact List.mem_of_find?_eq_some found

/-! ### Runs without a conversation -/

variable (channel)

/-- A command line that is not admitted leaves the peer alone. -/
theorem peer_of_not_admits
    (nobody : ∀ command context, ¬ tool.Admits arguments session.host command context) :
    (tool.dispatch channel arguments session).2.peer = session.peer := by
  cases found : arguments[1]?.bind tool.lookup with
  | none =>
    rw [dispatch, found]
    rfl
  | some command =>
    cases short : checkLength arguments tool.settings.maxCommandBytes with
    | error cause =>
      rw [dispatch, found]
      simp only [short]
      rfl
    | ok _ =>
      rw [dispatch_of_found channel found short]
      rcases parsed : command.parse tool.settings session.host.files (arguments.drop 2) with
        ⟨cause | _ | _, context⟩
      · change ((command.run tool.settings channel _).run session).2.peer = _
        rw [Command.run_of_refused parsed]
        exact (Aloof.explain command cause session session.peer).1
      · cases acquired : ((Command.acquireLock tool.settings).run session.host).1 with
        | ok lock =>
          have takable := Command.succeeds_acquireLock_iff.mp ⟨lock, acquired⟩
          exact absurd (admits_of_parse found short parsed takable) (nobody command context)
        | error cause =>
          change ((command.run tool.settings channel _).run session).2.peer = _
          rw [Command.run_of_parse parsed, Command.locked_of_refused acquired]
          rfl
      · change ((command.run tool.settings channel _).run session).2.peer = _
        rw [Command.run_of_help parsed]
        exact (Aloof.print command.help session session.peer).1

/-- What a run requests its command requests. -/
theorem requests_of_uninformed (uninformed : tool.information? arguments = none) :
    tool.requests channel arguments session =
      (tool.dispatch channel.recording arguments
        ((tool.opened arguments session).keep [])).2.peer.2 :=
  congrArg Prod.snd (run_of_dispatch channel.recording (session.keep []) uninformed).1

theorem requests_of_not_admits (nobody : ∀ command context,
    ¬ tool.Admits arguments (tool.opened arguments session).host command context) :
    tool.requests channel arguments session = [] := by
  cases informed : tool.information? arguments with
  | none =>
    rw [requests_of_uninformed channel informed]
    have nobody : ∀ command context,
        ¬ tool.Admits arguments ((tool.opened arguments session).keep []).host command context :=
      nobody
    exact congrArg Prod.snd (peer_of_not_admits channel.recording nobody)
  | some text =>
    have shown := run_of_informed channel.recording (session.keep []) informed
    have stays := (Aloof.inform text (tool.opened arguments (session.keep []))
      (session.keep []).peer).1
    exact congrArg Prod.snd ((congrArg (·.2.peer) shown).trans stays)

/-! ### Conversations -/

/-- The command of an admitted command line requests something only if the channel opens. Then
it holds its dialogue, and fails with the error of that unless help follows on it. -/
theorem connects_of_admits {command : Command} {context : command.Context}
    (admits : tool.Admits arguments (tool.opened arguments session).host command context) :
    ∃ final, Course.connects channel (command.execute context)
      (tool.entered (tool.opened arguments session)) (tool.requests channel arguments session)
      (tool.dispatch channel arguments (tool.opened arguments session)).1 final := by
  obtain ⟨requests, ran, connects⟩ := requests_connected channel command context
    (tool.entered (tool.opened arguments session)) []
  obtain ⟨_, commands⟩ := dispatch_of_admits channel admits
  have kept : tool.Admits arguments ((tool.opened arguments session).keep []).host command
    context := admits
  obtain ⟨_, records⟩ := dispatch_of_admits channel.recording kept
  have same : tool.requests channel arguments session = requests := by
    rw [requests_of_uninformed channel admits.informs_nothing, records]
    exact congrArg (fun ended => ended.2.peer.2) ran
  rw [same, commands]
  exact ⟨_, connects⟩

variable {channel}

/-- A run converses with the device: its command line is admitted, and the channel opens for
whoever holds the lock. -/
structure Converses (tool : Tool) (channel : Channel τ) (arguments : List String)
    (session : Session τ) (command : Command) (context : command.Context) : Prop where
  admits : tool.Admits arguments (tool.opened arguments session).host command context
  opens : (channel.connect ((tool.entered (tool.opened arguments session)).host,
    (tool.entered (tool.opened arguments session)).peer)).1 = .ok ()

/-- A run that requests something converses with the device. -/
theorem exists_converses (some : tool.requests channel arguments session ≠ []) :
    ∃ command context, tool.Converses channel arguments session command context := by
  by_cases admitted : ∃ command context,
      tool.Admits arguments (tool.opened arguments session).host command context
  · obtain ⟨command, context, admits⟩ := admitted
    refine ⟨command, context, admits, ?_⟩
    obtain ⟨_, connects⟩ := connects_of_admits channel admits
    rw [Course.connects] at connects
    split at connects
    next => exact absurd connects some
    next opens => exact opens
  · exact absurd (requests_of_not_admits channel fun command context admits =>
      admitted ⟨command, context, admits⟩) some

variable (tool channel arguments session)

/-- The command of a run fails with an error of this number, which the run returns. -/
def FailsWith (number : Int) : Prop :=
  (tool.run channel arguments session).1 = some number ∧
    ∃ cause, (tool.dispatch channel arguments (tool.opened arguments session)).1 = .error cause ∧
      cause.errno = number

variable {tool channel arguments session}

namespace Converses

variable {command : Command} {context : command.Context} {target : Target} {plan : Plan Dump}

/-- What is requested is requested in attempts, and if the plan fails the run fails. -/
theorem attempts (converses : tool.Converses channel arguments session command context)
    (does : command.Does context target plan) :
    ∃ (attempts : List Attempt) (outcome : Except Error Dump),
      tool.requests channel arguments session = attempts.flatMap Attempt.steps ∧
        plan.Course attempts outcome ∧
        ∀ number, Plan.EndsWith outcome number →
          tool.FailsWith channel arguments session number := by
  obtain ⟨_, connects⟩ := connects_of_admits channel converses.admits
  rw [Course.connects, converses.opens] at connects
  obtain ⟨outcome, held, fails⟩ := connects
  rw [← does.reads.carries] at held
  obtain ⟨attempts, split, course⟩ := Plan.course_of_held held
  refine ⟨attempts, outcome, split, course, ?_⟩
  rintro _ ⟨cause, same, ⟨rfl, lasting⟩, told⟩
  have failed := fails cause same told
  refine ⟨?_, cause, failed, rfl⟩
  rw [(run_of_dispatch channel session converses.admits.informs_nothing).2 cause failed, lasting]
  rfl

/-- All requests are about the target. -/
theorem names (converses : tool.Converses channel arguments session command context)
    (does : command.Does context target plan) :
    ∀ step ∈ tool.requests channel arguments session, step.1.Names target.address := by
  obtain ⟨attempts, _, split, course, _⟩ := converses.attempts does
  rw [split]
  intro step member
  obtain ⟨attempt, made, taken⟩ := List.mem_flatMap.mp member
  obtain ⟨_, held⟩ := course.held attempt made
  obtain ⟨_, named, _⟩ := course.all does.reads.all attempt made
  exact named step.1 (Order.sends_of_held held step taken)

end Converses

end Tool

end NicScope
