/-
This file says when a lock can be taken. Its file must be one that can be opened or made, which is
decided by the files of the host alone: the directory must be there or must be one that can be
made, and the path of the lock must then lead to a file or to a free name. And it must be a file
that the system locks.
-/

import Mathlib.Logic.Basic
import NicScope.Tool

namespace NicScope

variable {σ κ α β : Type}

/-! ### Actions that succeed -/

/-- What follows an action begins with its result. -/
theorem bind_of_result {action : StateM σ α} {next : α → StateM σ β} {state : σ} {given : α}
    (result : (action state).1 = given) :
    (action >>= next) state = next given (action state).2 := by
  subst result
  rfl

theorem run_bind_of_ok {first : ExceptT κ (StateM σ) α} {next : α → ExceptT κ (StateM σ) β}
    {state after : σ} {given : α} (ran : first.run state = (.ok given, after)) :
    (first >>= next).run state = (next given).run after := by
  change (first.run >>= ExceptT.bindCont next) state = _
  rw [bind_of_result (congrArg Prod.fst ran), ran]
  rfl

theorem run_bind_of_error {first : ExceptT κ (StateM σ) α} {next : α → ExceptT κ (StateM σ) β}
    {state after : σ} {cause : κ} (ran : first.run state = (.error cause, after)) :
    (first >>= next).run state = (.error cause, after) := by
  change (first.run >>= ExceptT.bindCont next) state = _
  rw [bind_of_result (congrArg Prod.fst ran), ran]
  rfl

theorem run_bind_get {next : σ → ExceptT κ (StateM σ) β} (state : σ) :
    (get >>= next).run state = (next state).run state :=
  rfl

/-- An action that may fail does not. -/
def Succeeds (action : ExceptT κ (StateM σ) α) (state : σ) : Prop :=
  ∃ value, (action.run state).1 = .ok value

instance (action : ExceptT κ (StateM σ) α) (state : σ) : Decidable (Succeeds action state) :=
  match ran : (action.run state).1 with
  | .ok value => .isTrue ⟨value, ran⟩
  | .error _ => .isFalse fun ⟨_, ok⟩ => nomatch ran.symm.trans ok

theorem succeeds_bind_iff {first : ExceptT κ (StateM σ) α} {next : α → ExceptT κ (StateM σ) β}
    {state : σ} :
    Succeeds (first >>= next) state ↔
      ∃ given, (first.run state).1 = .ok given ∧ Succeeds (next given) (first.run state).2 := by
  change (∃ value, (ExceptT.bindCont next (first.run state).1 (first.run state).2).1 = _) ↔ _
  cases (first.run state).1 with
  | ok given =>
    refine ⟨fun ends => ⟨given, rfl, ends⟩, ?_⟩
    rintro ⟨_, ⟨⟩, ends⟩
    exact ends
  | error cause =>
    refine iff_of_false ?_ ?_
    · rintro ⟨_, ⟨⟩⟩
    · rintro ⟨_, ⟨⟩, _⟩

theorem mapError_eq_ok_iff {κ' : Type} {describe : κ → κ'} {result : Except κ α} {value : α} :
    result.mapError describe = .ok value ↔ result = .ok value := by
  cases result with
  | ok given => exact ⟨fun same => by cases same; rfl, fun same => by cases same; rfl⟩
  | error cause => exact iff_of_false nofun nofun

/-! ### Files -/

/-- A name that is free, or that of a file. -/
def Place.TakesFile (place : Place) : Prop :=
  ∀ node, place.node = some node → ∃ mode content, node = .file mode content

theorem FileAction.run_look (find : FileTree → Except IoError α) (files : FileTree) :
    (look find).run files = (find files, files) := by
  change (ofExcept (find files) : FileAction α).run files = _
  cases find files with
  | ok value => rfl
  | error cause => rfl

/-- A file can be opened or made where its path leads to a file or to a free name. -/
theorem FileAction.succeeds_createFile_iff {files : FileTree} {path : String} {mode : Nat} :
    Succeeds (createFile path mode) files ↔
      ∃ place, files.find path .newFile = .ok place ∧ place.TakesFile := by
  rw [createFile, succeeds_bind_iff, FileAction.run_look]
  refine exists_congr fun place => and_congr_right fun _ => ?_
  constructor
  · intro opens node here
    rw [here] at opens
    cases node with
    | file mode content => exact ⟨mode, content, rfl⟩
    | directory => obtain ⟨_, ⟨⟩⟩ := opens
    | link target => obtain ⟨_, ⟨⟩⟩ := opens
  · intro takes
    cases here : place.node with
    | none => exact ⟨_, rfl⟩
    | some node =>
      obtain ⟨mode, content, rfl⟩ := takes node here
      exact ⟨_, rfl⟩

/-- On a host an operation on the files comes to what it comes to on the files. -/
theorem Host.run_onFiles (action : FileAction α) (host : Host) :
    (onFiles action).run host =
      ((action.run host.files).1.mapError .io,
        { host with files := (action.run host.files).2 }) := by
  change onFiles action host = _
  rw [onFiles]
  rcases action.run host.files with ⟨cause | value, files⟩
  · rfl
  · rfl

/-- What the files are when an operation has been done, and nothing but a result is made of it. -/
theorem Host.files_onFiles_map {action : FileAction α} (result : α → β) (host : Host) :
    ((onFiles action >>= fun given => pure (result given)).run host).2.files =
      (action.run host.files).2 := by
  have ran := Host.run_onFiles action host
  rcases done : action.run host.files with ⟨cause | value, files⟩
  · rw [done] at ran
    rw [run_bind_of_error ran]
  · rw [done] at ran
    rw [run_bind_of_ok ran]
    rfl

/-! ### Locks -/

/-- A lock file can be opened or made: its directory is there or can be made, and then its path
leads to a file or to a free name. -/
def FileLock.Available (files : FileTree) (directory name : String) : Prop :=
  Succeeds (FileAction.ensurePath directory) files ∧
    ∃ place, ((FileAction.ensurePath directory).run files).2.find (Path.join directory name)
      .newFile = .ok place ∧ place.TakesFile

/-- What taking a lock does to the files: its directory is made and its file, unless they are
there. -/
def FileLock.provide (directory name : String) : FileAction Key := do
  FileAction.ensurePath directory
  FileAction.createFile (Path.join directory name) 0o600

/-- A lock is taken once its file is there, unless the system does not lock it; else nothing but
what was made of its file is left. -/
theorem FileLock.run_acquire (directory name : String) (host : Host) :
    (acquire directory name).run host =
      match (provide directory name).run host.files with
      | (.ok key, files) =>
        match host.unlockable key with
        | some errno => (.error (.lock errno), { host with files })
        | none => (.ok ⟨Path.join directory name, key⟩, { host with files }.lock key)
      | (.error cause, files) => (.error (.io cause), { host with files }) := by
  have directories := Host.run_onFiles (FileAction.ensurePath directory) host
  rcases made : (FileAction.ensurePath directory).run host.files with ⟨cause | _, middle⟩
  · rw [made] at directories
    have refused : (prepare directory name).run host =
        (.error (.io cause), { host with files := middle }) := by
      rw [prepare, run_bind_of_error directories]
    rw [acquire, run_bind_of_error refused, provide, run_bind_of_error made]
  rw [made] at directories
  have file := Host.run_onFiles (FileAction.createFile (Path.join directory name) 0o600)
    { host with files := middle }
  rw [provide, run_bind_of_ok made]
  rcases opened : (FileAction.createFile (Path.join directory name) 0o600).run middle with
    ⟨cause | key, after⟩
  · rw [opened] at file
    have refused : (prepare directory name).run host =
        (.error (.io cause), { host with files := after }) := by
      rw [prepare, run_bind_of_ok directories, run_bind_of_error file]
    rw [acquire, run_bind_of_error refused]
  · rw [opened] at file
    have prepared : (prepare directory name).run host =
        (.ok ⟨Path.join directory name, key⟩, { host with files := after }) := by
      rw [prepare, run_bind_of_ok directories, run_bind_of_ok file]
      rfl
    rw [acquire, run_bind_of_ok prepared, run_bind_get]
    dsimp only
    cases host.unlockable key with
    | some errno => rfl
    | none => rfl

/-- Either way, only the file of the lock is made: a lock is refused, or it is that of a file which
the system locks. -/
theorem FileLock.acquire_cases (directory name : String) (host : Host) :
    (∃ cause, (acquire directory name).run host =
        (.error cause, { host with files := ((provide directory name).run host.files).2 })) ∨
      ∃ key files, (provide directory name).run host.files = (.ok key, files) ∧
        host.unlockable key = none ∧ (acquire directory name).run host =
          (.ok ⟨Path.join directory name, key⟩, { host with files }.lock key) := by
  rw [run_acquire]
  rcases (provide directory name).run host.files with ⟨cause | key, files⟩
  · exact .inl ⟨_, rfl⟩
  · cases granted : host.unlockable key with
    | some errno =>
      dsimp only
      rw [granted]
      exact .inl ⟨_, rfl⟩
    | none =>
      refine .inr ⟨key, files, rfl, granted, ?_⟩
      dsimp only
      rw [granted]

theorem FileLock.files_acquire (directory name : String) (host : Host) :
    ((acquire directory name).run host).2.files = ((provide directory name).run host.files).2 := by
  rcases acquire_cases directory name host with
    ⟨_, refused⟩ | ⟨_, _, provided, _, acquired⟩
  · rw [refused]
  · rw [acquired, provided]
    rfl

theorem FileLock.succeeds_provide_iff {files : FileTree} {directory name : String} :
    Succeeds (provide directory name) files ↔ Available files directory name := by
  rw [provide, succeeds_bind_iff]
  simp only [FileAction.succeeds_createFile_iff, exists_and_right]
  rfl

/-- A lock can be taken: its file can be opened or made, and the system locks it. -/
structure FileLock.Takable (host : Host) (directory name : String) : Prop where
  available : Available host.files directory name
  granted : ∀ key, ((provide directory name).run host.files).1 = .ok key →
    host.unlockable key = none

theorem FileLock.succeeds_acquire_iff {directory name : String} {host : Host} :
    Succeeds (acquire directory name) host ↔ Takable host directory name := by
  rw [Succeeds, run_acquire]
  rcases provided : (provide directory name).run host.files with ⟨cause | key, files⟩
  · refine iff_of_false nofun fun takable => ?_
    obtain ⟨_, opens⟩ := succeeds_provide_iff.mpr takable.available
    cases (congrArg Prod.fst provided).symm.trans opens
  · have opens := congrArg Prod.fst provided
    dsimp only
    cases lockable : host.unlockable key with
    | some errno =>
      refine iff_of_false nofun fun takable => ?_
      cases lockable.symm.trans (takable.granted key opens)
    | none =>
      refine iff_of_true ⟨_, rfl⟩ ⟨succeeds_provide_iff.mp ⟨key, opens⟩, fun other same => ?_⟩
      cases opens.symm.trans same
      exact lockable

instance (host : Host) (directory name : String) :
    Decidable (FileLock.Takable host directory name) :=
  decidable_of_iff _ FileLock.succeeds_acquire_iff

theorem Command.succeeds_acquireLock_iff {settings : Settings} {host : Host} :
    Succeeds (acquireLock settings) host ↔
      FileLock.Takable host settings.lockDirectory lockName :=
  (exists_congr fun _ => mapError_eq_ok_iff).trans FileLock.succeeds_acquire_iff

end NicScope
