/-
This file says what a command sees of the files. It sees what device an interface name stands for,
and what becomes of its lock; so over a remote channel a command line comes to the same where these
are the same and the system locks the same files, whatever else is different about the host.
-/

import NicScope.Proofs.Session.Attempts
import NicScope.Proofs.Session.Remote
import NicScope.Proofs.Session.Stages

namespace NicScope

variable {τ : Type} {settings : Settings} {tree other third : FileTree}

/-! ### What is seen -/

/-- The files show the same to the commands: each name of a target is resolved to the same, and
their lock is taken with the same result. -/
structure SameView (settings : Settings) (tree other : FileTree) : Prop where
  target : ∀ name, Target.resolve other settings.systemRoot name =
    Target.resolve tree settings.systemRoot name
  lock : ((FileLock.provide settings.lockDirectory Command.lockName).run other).1 =
    ((FileLock.provide settings.lockDirectory Command.lockName).run tree).1

namespace SameView

protected theorem symm (same : SameView settings tree other) : SameView settings other tree :=
  ⟨fun name => (same.target name).symm, same.lock.symm⟩

protected theorem trans (first : SameView settings tree other)
    (second : SameView settings other third) : SameView settings tree third :=
  ⟨fun name => (second.target name).trans (first.target name), second.lock.trans first.lock⟩

theorem option_eq {γ : Type} (same : SameView settings tree other) (place : Target → γ → γ) :
    Interface.option other settings.systemRoot place =
      Interface.option tree settings.systemRoot place := by
  have resolves : Target.resolve other settings.systemRoot =
      Target.resolve tree settings.systemRoot := funext same.target
  rw [Interface.option, Interface.option, resolves]

/-- The options of the commands read no other files. -/
theorem options_eq (same : SameView settings tree other) {command : Command}
    (listed : command ∈ Tool.commands) :
    command.options other settings.systemRoot = command.options tree settings.systemRoot := by
  simp only [Tool.commands, List.mem_cons, List.not_mem_nil, or_false] at listed
  rcases listed with rfl | rfl | rfl
  · change Director.options other _ = Director.options tree _
    rw [Director.options, Director.options, same.option_eq]
  · change Port.options other _ = Port.options tree _
    rw [Port.options, Port.options, same.option_eq]
  · change Scaling.options other _ = Scaling.options tree _
    rw [Scaling.options, Scaling.options, same.option_eq]

theorem parse_eq (same : SameView settings tree other) {command : Command}
    (listed : command ∈ Tool.commands) (tokens : List String) :
    command.parse settings other tokens = command.parse settings tree tokens := by
  rw [Command.parse, Command.parse, same.options_eq listed]

end SameView

/-! ### Commands -/

/-- What becomes of the file of the lock decides the result of taking it, and whether the system
locks that. -/
theorem Command.result_acquireLock (settings : Settings) (host : Host) :
    ((acquireLock settings).run host).1 =
      match ((FileLock.provide settings.lockDirectory lockName).run host.files).1 with
      | .ok key =>
        match host.unlockable key with
        | some errno => .error (.lock errno)
        | none => .ok ⟨Path.join settings.lockDirectory lockName, key⟩
      | .error cause => .error (.lock (.ofNumber (-(Error.io cause).errno).toNat)) := by
  have taken := FileLock.run_acquire settings.lockDirectory lockName host
  change ((FileLock.acquire settings.lockDirectory lockName).run host).1.mapError _ = _
  rw [taken]
  rcases (FileLock.provide settings.lockDirectory lockName).run host.files with ⟨cause | key, files⟩
  · rfl
  · dsimp only
    cases host.unlockable key with
    | some errno => rfl
    | none => rfl

variable {tool : Tool} {channel : Channel τ} {first second : Session τ} (remote : channel.Remote)
  (alike : first.Alike second)

section Locks

variable (locks : second.host.unlockable = first.host.unlockable)

include alike locks

theorem SameView.parallel_acquireLock
    (same : SameView settings first.host.files second.host.files) :
    Parallel Session.Alike (Session.attempt (Command.acquireLock settings) : Step τ FileLock).run
      first second := by
  refine ⟨?_, alike.output, alike.peer⟩
  change ((Command.acquireLock settings).run second.host).1 =
    ((Command.acquireLock settings).run first.host).1
  rw [Command.result_acquireLock, Command.result_acquireLock, same.lock, locks]

include remote

theorem SameView.parallel_locked (same : SameView settings first.host.files second.host.files)
    (command : Command) (context : command.Context) :
    Parallel Session.Alike (command.locked settings channel context).run first second := by
  have taken := same.parallel_acquireLock alike locks
  refine taken.step fun lock _ => ?_
  exact Heedless.bind (.connected remote command context)
    (fun result => .bind (.onHost lock.release) fun _ => .pure result) taken.agree

/-- What is seen of the files decides how the options are read, and whether the device is
visited. -/
theorem SameView.parallel_command (same : SameView settings first.host.files second.host.files)
    {command : Command} (listed : command ∈ Tool.commands) (tokens : List String) :
    Parallel Session.Alike (command.run settings channel tokens).run first second := by
  have reads := same.parse_eq listed tokens
  rcases parsed : command.parse settings first.host.files tokens with ⟨cause | _ | _, context⟩
  all_goals rw [parsed] at reads
  · exact .of_eq (Command.run_of_refused parsed) (Command.run_of_refused reads)
      (Heedless.bind (.explain command cause) (fun cause => .pure (Except.error cause)) alike)
  · exact .of_eq (Command.run_of_parse parsed) (Command.run_of_parse reads)
      (same.parallel_locked remote alike locks command context)
  · exact .of_eq (Command.run_of_help parsed) (Command.run_of_help reads)
      (Heedless.print command.help alike)

theorem SameView.parallel_dispatch
    (same : SameView tool.settings first.host.files second.host.files) (arguments : List String) :
    Parallel Session.Alike (tool.dispatch channel arguments).run first second := by
  rw [Tool.dispatch]
  split
  next => exact .pure (Except.error Error.unknownCommand) alike
  next command found =>
    split
    next cause _ => exact .pure (Except.error cause) alike
    next =>
      have listed := Tool.mem_of_lookup found
      exact same.parallel_command remote alike locks listed (arguments.drop 2)

theorem SameView.parallel_execute
    (same : SameView tool.settings first.host.files second.host.files) (arguments : List String) :
    Parallel Session.Alike (tool.execute channel arguments) first second := by
  have dispatched := same.parallel_dispatch remote alike locks arguments
  exact dispatched.bind fun result _ => Heedless.conclude result dispatched.agree

end Locks

/-! ### Runs -/

include remote alike

/-- Where the files show the same once the log is open, a run comes to the same. -/
theorem SameView.parallel_run {arguments : List String}
    (locks : (tool.opened arguments second).host.unlockable =
      (tool.opened arguments first).host.unlockable)
    (same : SameView tool.settings (tool.opened arguments first).host.files
      (tool.opened arguments second).host.files) :
    Parallel Session.Alike (tool.run channel arguments) first second := by
  have opened : (tool.opened arguments first).Alike (tool.opened arguments second) :=
    ⟨alike.output, alike.peer⟩
  cases informed : tool.information? arguments with
  | some text =>
    have one := Tool.run_of_informed channel first informed
    have other := Tool.run_of_informed channel second informed
    obtain ⟨result, agree⟩ := Heedless.inform text opened
    exact ⟨by rw [one, other, result], by rw [one, other]; exact agree⟩
  | none =>
    have one := Tool.run_of_uninformed channel first informed
    have other := Tool.run_of_uninformed channel second informed
    obtain ⟨result, agree⟩ := same.parallel_execute remote opened locks arguments
    exact ⟨by rw [one, other]; exact result,
      by rw [one, other]; exact ⟨agree.output, agree.peer⟩⟩

end NicScope
