/-
This file says what a run of the program requests over its channel. A channel that keeps a
record of the requests with their replies changes nothing else about a run, so the requests of
a run are what such a channel keeps. Where a command comes to open the channel they are those of
its dialogue, and an error that the dialogue ends with is what the command fails with, unless the
help of the command follows on it.
-/

import NicScope.Proofs.Session.Aloof
import NicScope.Proofs.Transfer.Held

namespace NicScope

open Dialogue

variable {τ α β : Type}

/-! ### Recorded sessions -/

/-- The channel that keeps every request with its reply beside the peer. -/
def Channel.recording (channel : Channel τ) : Channel (τ × List (Query × Reply)) where
  connect := fun (host, peer, past) =>
    let (result, host, peer) := channel.connect (host, peer)
    (result, host, peer, past)
  request query := fun (host, peer, past) =>
    let (reply, host, peer) := channel.request query (host, peer)
    (reply, host, peer, past ++ [(query, reply)])
  close := fun (host, peer, past) =>
    let (host, peer) := channel.close (host, peer)
    (host, peer, past)

/-- A session with a record of requests. -/
def Session.keep (session : Session τ) (past : List (Query × Reply)) :
    Session (τ × List (Query × Reply)) :=
  ⟨session.host, session.output, session.peer, past⟩

/-- An action of a session that requests what a course says; `twin` is the same action with
a channel that keeps a record. -/
abbrev Requests (action : StateM (Session τ) α)
    (twin : StateM (Session (τ × List (Query × Reply))) α)
    (course : Course (Session τ) (Query × Reply) α) : Prop :=
  Recorded Session.keep action twin course

/-- Nothing is requested. -/
abbrev Silent (action : StateM (Session τ) α)
    (twin : StateM (Session (τ × List (Query × Reply))) α) : Prop :=
  Requests action twin fun _ requests _ _ => requests = []

/-- Nothing but the record is different. -/
abbrev Transparent (action : StateM (Session τ) α)
    (twin : StateM (Session (τ × List (Query × Reply))) α) : Prop :=
  Requests action twin fun _ _ _ _ => True

theorem Requests.transparent {action : StateM (Session τ) α}
    {twin : StateM (Session (τ × List (Query × Reply))) α}
    {course : Course (Session τ) (Query × Reply) α} (requests : Requests action twin course) :
    Transparent action twin :=
  requests.mono fun _ _ _ _ _ => trivial

/-- What keeps away from the peer requests nothing. -/
theorem Aloof.silent {action : StateM (Session τ) α}
    {twin : StateM (Session (τ × List (Query × Reply))) α} (aloof : Aloof action twin) :
    Silent action twin :=
  aloof.recorded Prod.mk fun _ _ => rfl

/-- An action that may change the peer, but does the same with a record beside it. -/
theorem Silent.of_eq {action : StateM (Session τ) α}
    {twin : StateM (Session (τ × List (Query × Reply))) α}
    (same : ∀ session past,
      twin (session.keep past) = ((action session).1, (action session).2.keep past)) :
    Silent action twin :=
  fun session past => ⟨[], by rw [List.append_nil]; exact same session past, rfl⟩

/-! ### Commands -/

/-- A dialogue is held, and an error that it ends with is the error of the action, unless help
is shown before it. -/
def Course.holds (exchange : Exchange α) :
    Course (Session τ) (Query × Reply) (Except Error β) := fun _ requests result _ =>
  ∃ outcome, exchange.run.Held requests outcome ∧ ∀ cause, outcome = .error cause →
    (∀ text, cause ≠ .usage text) → result = .error cause

section Commands

variable (channel : Channel τ)

theorem requests_run (dialogue : Dialogue Query Reply α) :
    Requests (dialogue.run (fun query => Session.onPeer (channel.request query)) Session.note)
      (dialogue.run (fun query => Session.onPeer (channel.recording.request query)) Session.note)
      fun _ requests result _ => dialogue.Held requests result := by
  refine (recorded_run id ?_ ?_ dialogue).mono ?_
  · exact fun _ _ _ => rfl
  · exact fun _ _ _ => rfl
  · rintro _ _ _ _ ⟨requests, rfl, held⟩
    rw [List.map_id]
    exact held

theorem requests_converse (exchange : Exchange α) :
    Requests (Session.converse channel exchange).run
      (Session.converse channel.recording exchange).run
      fun _ requests result _ => exchange.run.Held requests result :=
  requests_run channel exchange.run

theorem silent_connect :
    Silent (Session.onPeer channel.connect) (Session.onPeer channel.recording.connect) :=
  .of_eq fun _ _ => rfl

theorem silent_close : Silent (Session.onPeer fun ends => ((), channel.close ends))
    (Session.onPeer fun ends => ((), channel.recording.close ends)) :=
  .of_eq fun _ _ => rfl

variable (command : Command) (context : command.Context)

theorem requests_perform :
    Requests (command.perform channel context).run (command.perform channel.recording context).run
      (.holds (command.execute context)) := by
  refine (Recorded.step _ (requests_converse channel (command.execute context))
    fun dump => (Aloof.dump dump).silent).mono ?_
  rintro _ _ result _ ⟨requests, later, outcome, _, rfl, held, rest⟩
  cases outcome with
  | ok dump =>
    obtain rfl : later = [] := rest
    rw [List.append_nil]
    exact ⟨_, held, fun cause same => by cases same⟩
  | error cause =>
    obtain ⟨rfl, rfl, _⟩ := rest
    rw [List.append_nil]
    exact ⟨_, held, fun cause same _ => by cases same; rfl⟩

/-- An error that is no error of usage is reported as it is. -/
theorem explain_of_told {cause : Error} (told : ∀ text, cause ≠ .usage text) :
    (command.explain cause : StateM (Session τ) Error) = pure cause := by
  cases cause with
  | usage text => exact absurd rfl (told text)
  | _ => rfl

/-- What is said about an error changes it only if help is shown. -/
theorem requests_explain (result : Except Error Unit) :
    Requests
      (match result with
        | .ok _ => return .ok ()
        | .error cause => return .error (← command.explain cause) :
          StateM (Session τ) (Except Error Unit))
      (match result with
        | .ok _ => return .ok ()
        | .error cause => return .error (← command.explain cause))
      fun _ requests final _ => requests = [] ∧ ∀ cause, result = .error cause →
        (∀ text, cause ≠ .usage text) → final = .error cause := by
  cases result with
  | ok _ =>
    refine (Aloof.pure (Except.ok ())).silent.mono ?_
    rintro _ _ _ _ rfl
    exact ⟨rfl, fun cause same => by cases same⟩
  | error cause =>
    intro session past
    obtain ⟨requests, ran, rfl⟩ :=
      ((Aloof.explain command cause).bind fun cause => .pure (Except.error cause)).silent
        session past
    refine ⟨[], ran, rfl, ?_⟩
    rintro _ ⟨⟩ told
    change ((command.explain cause >>= fun cause => pure (Except.error cause)) session).1 = _
    rw [explain_of_told command told]
    rfl

/-- Where the channel does not open nothing is requested; else the dialogue is held. -/
def Course.connects (channel : Channel τ) (exchange : Exchange α) :
    Course (Session τ) (Query × Reply) (Except Error β) := fun session requests result final =>
  match (channel.connect (session.host, session.peer)).1 with
  | .error _ => requests = []
  | .ok _ => Course.holds exchange session requests result final

theorem requests_connected :
    Requests (command.connected channel context) (command.connected channel.recording context)
      (.connects channel (command.execute context)) := by
  refine (Recorded.bindTo (fun
      | .error _ => fun _ requests _ _ => requests = []
      | .ok _ => .holds (command.execute context)) (silent_connect channel).exactly
    fun opened => ?_).mono ?_
  · cases opened with
    | error cause => exact (Aloof.pure _).silent
    | ok _ =>
      refine ((requests_perform channel command context).bind fun result =>
        Recorded.bind (silent_close channel) fun _ => requests_explain command result).mono ?_
      rintro _ _ _ _ ⟨requests, _, result, _, rfl, ⟨outcome, held, keeps⟩, _, _, _, _, rfl, rfl,
        rfl, ends⟩
      rw [List.append_nil, List.append_nil]
      exact ⟨outcome, held, fun cause same told => ends cause (keeps cause same told) told⟩
  · rintro session _ _ _ ⟨_, _, opened, _, rfl, ⟨rfl, connected⟩, holds⟩
    have opens : (channel.connect (session.host, session.peer)).1 = opened :=
      (congrArg Prod.fst connected).symm
    rw [Course.connects, opens]
    cases opened with
    | error cause => exact holds
    | ok _ => exact holds

theorem transparent_locked (settings : Settings) :
    Transparent (command.locked settings channel context).run
      (command.locked settings channel.recording context).run :=
  Requests.transparent <| Recorded.step _
    (Aloof.onHost (Command.acquireLock settings).run).silent fun lock =>
      (requests_connected channel command context).bind fun result =>
        Recorded.bind (Aloof.onHost lock.release).silent fun _ => Recorded.pure Session.keep result

theorem transparent_command (settings : Settings) (tokens : List String) :
    Transparent (command.run settings channel tokens).run
      (command.run settings channel.recording tokens).run := by
  intro session past
  have same : (session.keep past).host.files = session.host.files := rfl
  rw [Command.run, Command.run]
  simp only [ExceptT.run_mk, same]
  -- The options are read from the files of the session, which the record leaves alone.
  rcases command.parse settings session.host.files tokens with ⟨cause | _ | _, context⟩
  · exact ((Aloof.explain command cause).bind fun cause =>
      .pure (Except.error cause)).silent.transparent session past
  · exact transparent_locked channel command context settings session past
  · exact (Aloof.print command.help).silent.transparent session past

end Commands

/-! ### Runs -/

namespace Tool

variable (tool : Tool) (channel : Channel τ) (arguments : List String)

theorem transparent_dispatch :
    Transparent (tool.dispatch channel arguments).run
      (tool.dispatch channel.recording arguments).run := by
  rw [dispatch, dispatch]
  split
  next => exact (Aloof.pure (Except.error Error.unknownCommand)).silent.transparent
  next command _ =>
    split
    next cause _ => exact (Aloof.pure (Except.error cause)).silent.transparent
    next => exact transparent_command channel command tool.settings (arguments.drop 2)

theorem transparent_execute :
    Transparent (tool.execute channel arguments) (tool.execute channel.recording arguments) :=
  Requests.transparent <| (transparent_dispatch tool channel arguments).bind fun result =>
    (Aloof.conclude result).silent

theorem transparent_run :
    Transparent (tool.run channel arguments) (tool.run channel.recording arguments) := by
  refine Requests.transparent (Recorded.bindTo (fun _ _ _ _ _ => True)
    (Aloof.onHost (tool.openLog arguments)).silent fun log => ?_)
  cases tool.information? arguments with
  | some text => exact (Aloof.inform text).silent.transparent
  | none =>
    exact Requests.transparent <| (transparent_execute tool channel arguments).bind fun result =>
      Recorded.bind (Aloof.onHost (closeLog log result)).silent fun _ =>
        Recorded.pure Session.keep result

/-- The session once the operation log is open. -/
def opened (session : Session τ) : Session τ :=
  (Session.onHost (tool.openLog arguments) session).2

/-- The requests of a run, each with its reply. -/
def requests (session : Session τ) : List (Query × Reply) :=
  (tool.run channel.recording arguments (session.keep [])).2.peer.2

/-- A channel that keeps a record of the requests changes nothing else about a run. -/
theorem run_recording (session : Session τ) :
    tool.run channel.recording arguments (session.keep []) =
      ((tool.run channel arguments session).1,
        (tool.run channel arguments session).2.keep
          (tool.requests channel arguments session)) := by
  obtain ⟨requests, ran, _⟩ := transparent_run tool channel arguments session []
  have same : tool.requests channel arguments session = requests := by
    rw [Tool.requests, ran]
    rfl
  rw [ran, same]
  rfl

end Tool

end NicScope
