/-
This file follows a run through its stages. The command of an admitted command line runs once
its lock is held, in the session that taking the lock leaves; what comes of it is reported, and
when that is done the operation log is closed.
-/

import NicScope.Proofs.Session.Admission

namespace NicScope

variable {τ : Type}

/-! ### Commands -/

namespace Command

variable {command : Command} {context : command.Context} {channel : Channel τ}
  {session : Session τ} {settings : Settings}

/-- A command whose options are read to their end goes on to its lock. -/
theorem run_of_parse {tokens : List String}
    (parsed : command.parse settings session.host.files tokens = (.ok .proceed, context)) :
    (command.run settings channel tokens).run session =
      (command.locked settings channel context).run session := by
  rw [run]
  simp only [ExceptT.run_mk, parsed]

/-- A command whose options are refused is explained. -/
theorem run_of_refused {tokens : List String} {cause : Error}
    (parsed : command.parse settings session.host.files tokens = (.error cause, context)) :
    (command.run settings channel tokens).run session =
      (.error (command.explain cause session).1, (command.explain cause session).2) := by
  rw [run]
  simp only [ExceptT.run_mk, parsed]
  rfl

/-- A command that is asked for its help shows it. -/
theorem run_of_help {tokens : List String}
    (parsed : command.parse settings session.host.files tokens = (.ok .help, context)) :
    (command.run settings channel tokens).run session =
      (Session.print command.help : Step τ Unit).run session := by
  rw [run]
  simp only [ExceptT.run_mk, parsed]

/-- A command whose lock can be taken comes to what it does while it holds the lock. -/
theorem locked_of_acquired {lock : FileLock}
    (acquired : ((acquireLock settings).run session.host).1 = .ok lock) :
    (command.locked settings channel context).run session =
      (do
        let result ← command.connected channel context
        Session.onHost lock.release
        return result : StateM (Session τ) (Except Error Unit))
        (Session.onHost (acquireLock settings).run session).2 := by
  have taken : (Session.attempt (acquireLock settings) : Step τ FileLock).run session =
      (.ok lock, (Session.onHost (acquireLock settings).run session).2) := Prod.ext acquired rfl
  rw [locked, run_bind_of_ok taken]
  rfl

/-- A command whose lock cannot be taken ends there. -/
theorem locked_of_refused {cause : Error}
    (refused : ((acquireLock settings).run session.host).1 = .error cause) :
    (command.locked settings channel context).run session =
      (.error cause, (Session.onHost (acquireLock settings).run session).2) := by
  have taken : (Session.attempt (acquireLock settings) : Step τ FileLock).run session =
      (.error cause, (Session.onHost (acquireLock settings).run session).2) := Prod.ext refused rfl
  rw [locked, run_bind_of_error taken]

end Command

/-! ### Runs -/

namespace Tool

variable (tool : Tool) (channel : Channel τ) (arguments : List String) (session : Session τ)

/-- The session once the lock of the commands is held. -/
def entered : Session τ :=
  (Session.onHost (Command.acquireLock tool.settings).run session).2

variable {tool arguments session}

theorem dispatch_of_found {command : Command}
    (found : arguments[1]?.bind tool.lookup = some command)
    (short : checkLength arguments tool.settings.maxCommandBytes = .ok ()) :
    tool.dispatch channel arguments = command.run tool.settings channel (arguments.drop 2) := by
  rw [dispatch, found]
  simp only [short]

theorem admits_of_parse {command : Command} {context : command.Context}
    (found : arguments[1]?.bind tool.lookup = some command)
    (short : checkLength arguments tool.settings.maxCommandBytes = .ok ())
    (parsed : command.parse tool.settings session.host.files (arguments.drop 2) =
      (.ok .proceed, context))
    (lockable : FileLock.Takable session.host tool.settings.lockDirectory Command.lockName) :
    tool.Admits arguments session.host command context := by
  obtain ⟨name, named, looked⟩ := Option.bind_eq_some_iff.mp found
  obtain ⟨listed, rfl, supported⟩ := lookup_eq_some_iff.mp looked
  exact ⟨listed, named, supported, checkLength_eq_ok_iff.mp short, parsed, lockable⟩

/-- The command of an admitted command line runs once its lock is held, and then lets go of it. -/
theorem dispatch_of_admits {command : Command} {context : command.Context}
    (admits : tool.Admits arguments session.host command context) :
    ∃ lock : FileLock, tool.dispatch channel arguments session =
      let ended := command.connected channel context (tool.entered session)
      (ended.1, (Session.onHost lock.release ended.2).2) := by
  obtain ⟨lock, acquired⟩ := Command.succeeds_acquireLock_iff.mpr admits.lockable
  have runs : tool.dispatch channel arguments session =
      (command.locked tool.settings channel context).run session := by
    rw [dispatch_of_found channel admits.found (checkLength_eq_ok_iff.mpr admits.short)]
    exact Command.run_of_parse admits.parsed
  refine ⟨lock, ?_⟩
  rw [runs, Command.locked_of_acquired acquired]
  rfl

variable (tool arguments session)

/-- A report leaves the peer alone, and of the host all but what is noted. -/
theorem conclude_leaves (result : Except Error Unit) (session : Session τ) :
    (conclude result session).2.peer = session.peer ∧
      ∃ records, (conclude result session).2.host =
        { session.host with log := session.host.log ++ records } := by
  have still : session.host = { session.host with log := session.host.log ++ [] } := by
    rw [List.append_nil]
  cases result with
  | ok _ => exact ⟨rfl, [], still⟩
  | error cause =>
    rw [conclude]
    split
    · exact ⟨rfl, [], still⟩
    · rcases reported : (report cause session).1 with _ | _
      all_goals rw [bind_of_result reported]
      · exact ⟨rfl, [_], rfl⟩
      · exact ⟨rfl, [], still⟩

/-- What is returned is the number of the error, unless that breaks the run off. -/
theorem result_conclude (result : Except Error Unit) (session : Session τ) :
    (conclude result session).1 =
      match result with
      | .ok _ => some 0
      | .error cause => if cause.breaksOff then none else some cause.errno := by
  cases result with
  | ok _ => rfl
  | error cause =>
    rw [conclude]
    dsimp only
    split
    · rfl
    · rcases reported : (report cause session).1 with _ | _
      all_goals
        rw [bind_of_result reported]
        rfl

/-- How the command ended decides what is returned. -/
theorem execute_of_dispatch :
    (tool.execute channel arguments session).2.peer =
        (tool.dispatch channel arguments session).2.peer ∧
      (∃ records, (tool.execute channel arguments session).2.host =
        { (tool.dispatch channel arguments session).2.host with
          log := (tool.dispatch channel arguments session).2.host.log ++ records }) ∧
      ∀ cause, (tool.dispatch channel arguments session).1 = .error cause →
        (tool.execute channel arguments session).1 =
          if cause.breaksOff then none else some cause.errno := by
  have ran : tool.execute channel arguments session =
      conclude (tool.dispatch channel arguments session).1
        (tool.dispatch channel arguments session).2 := rfl
  obtain ⟨peer, host⟩ := conclude_leaves (tool.dispatch channel arguments session).1
    (tool.dispatch channel arguments session).2
  rw [ran, result_conclude]
  refine ⟨peer, host, fun cause failed => ?_⟩
  rw [failed]

variable {tool arguments}

/-- A run that is asked for no information executes its command and then closes the log. -/
theorem run_of_uninformed (uninformed : tool.information? arguments = none) :
    tool.run channel arguments session =
      let ended := tool.execute channel arguments (tool.opened arguments session)
      (ended.1, (Session.onHost (closeLog (tool.openLog arguments session.host).1 ended.1)
        ended.2).2) := by
  rw [run]
  simp only [uninformed]
  rfl

theorem result_of_uninformed (uninformed : tool.information? arguments = none) :
    (tool.run channel arguments session).1 =
      (tool.execute channel arguments (tool.opened arguments session)).1 := by
  rw [run_of_uninformed channel session uninformed]

theorem run_of_dispatch (uninformed : tool.information? arguments = none) :
    (tool.run channel arguments session).2.peer =
        (tool.dispatch channel arguments (tool.opened arguments session)).2.peer ∧
      ∀ cause, (tool.dispatch channel arguments (tool.opened arguments session)).1 =
        .error cause → (tool.run channel arguments session).1 =
          if cause.breaksOff then none else some cause.errno := by
  rw [run_of_uninformed channel session uninformed]
  obtain ⟨peer, _, number⟩ :=
    execute_of_dispatch tool channel arguments (tool.opened arguments session)
  exact ⟨peer, number⟩

/-- A run that is asked for information opens the log and shows it. -/
theorem run_of_informed {text : String} (informed : tool.information? arguments = some text) :
    tool.run channel arguments session = inform text (tool.opened arguments session) := by
  rw [run]
  simp only [informed]
  rfl

/-- A run that is asked for information only opens the log and writes to the output. -/
theorem host_of_informed {text : String} (informed : tool.information? arguments = some text) :
    (tool.run channel arguments session).2.host = (tool.opened arguments session).host := by
  rw [run_of_informed channel session informed, inform]
  rcases written : (Session.write text (tool.opened arguments session)).1 with _ | _
  all_goals
    rw [bind_of_result written]
    rfl

end Tool

end NicScope
