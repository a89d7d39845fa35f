/-
This file says what the operations that make files and directories come to. A directory that was
made with its parents is there, and making it again changes nothing; a file that was opened or
made is where its path leads. What they change, they change by making something under free
names.
-/

import NicScope.Proofs.Host.Walking
import NicScope.Proofs.Session.Locking

namespace NicScope

open FileTree

namespace FileAction

variable {files : FileTree} {path : String}

theorem run_tryCatch {α : Type} (action : FileAction α) (handler : IoError → FileAction α)
    (files : FileTree) :
    (tryCatch action handler).run files =
      match action.run files with
      | (.ok value, after) => (.ok value, after)
      | (.error cause, after) => (handler cause).run after := by
  rw [ExceptT.run_tryCatch]
  rcases ran : action.run files with ⟨cause | value, after⟩
  · rw [bind_of_result (congrArg Prod.fst ran), ran]
  · rw [bind_of_result (congrArg Prod.fst ran), ran]
    rfl

/-! ### Directories -/

theorem run_makeDirectory (path : String) (files : FileTree) :
    (makeDirectory path).run files =
      match files.find path .newDirectory with
      | .error cause => (.error cause, files)
      | .ok ⟨_, some _⟩ => (.error (.system .alreadyExists), files)
      | .ok ⟨key, none⟩ => (.ok (), files.insert key .directory) := by
  rw [makeDirectory]
  rcases found : files.find path .newDirectory with cause | ⟨key, _ | node⟩
  all_goals
    have looked := run_look (·.find path .newDirectory) files
    rw [found] at looked
  · rw [run_bind_of_error looked]
  · rw [run_bind_of_ok looked]
    rfl
  · rw [run_bind_of_ok looked]
    rfl

/-- Whatever comes of it, a directory is made under a free name or nothing is. -/
theorem extends_makeDirectory (path : String) (files : FileTree) :
    Extends files ((makeDirectory path).run files).2 := by
  rw [run_makeDirectory]
  split
  · exact .refl files
  · exact .refl files
  next key free => exact extends_insert (isDirectory_insert free).1

theorem isDirectory_of_makeDirectory {after : FileTree}
    (made : (makeDirectory path).run files = (.ok (), after)) : after.isDirectory path = true := by
  rw [run_makeDirectory] at made
  split at made
  · cases made
  · cases made
  next key free =>
    cases made
    exact (isDirectory_insert free).2

/-- What is done where a directory cannot be made: nothing, if it is there. -/
theorem run_unlessDirectory (path : String) (cause : IoError) (files : FileTree) :
    (do if !(← get).isDirectory path then throw cause : FileAction Unit).run files =
      (if files.isDirectory path then .ok () else .error cause, files) := by
  rw [run_bind_get]
  cases files.isDirectory path
  · rfl
  · rfl

/-- Whatever comes of it, a directory is made under a free name or nothing is; and if it does not
fail the directory is there. -/
theorem run_ensureDirectory (path : String) (files : FileTree) :
    Extends files ((ensureDirectory path).run files).2 ∧
      (((ensureDirectory path).run files).1 = .ok () →
        ((ensureDirectory path).run files).2.isDirectory path = true) := by
  have adds := extends_makeDirectory path files
  rw [ensureDirectory, run_tryCatch]
  rcases made : (makeDirectory path).run files with ⟨cause | _, after⟩
  · rw [made] at adds
    dsimp only
    rw [run_unlessDirectory]
    refine ⟨adds, fun ends => ?_⟩
    by_cases here : after.isDirectory path = true
    · exact here
    · rw [if_neg here] at ends
      cases ends
  · rw [made] at adds
    exact ⟨adds, fun _ => isDirectory_of_makeDirectory made⟩

/-- Whatever comes of it, directories are made under free names; and if it does not fail the first
of them is there. -/
theorem run_ensureAll (paths : List String) (files : FileTree) :
    Extends files ((ensureAll paths).run files).2 ∧
      (((ensureAll paths).run files).1 = .ok () →
        ∀ path ∈ paths.head?, ((ensureAll paths).run files).2.isDirectory path = true) := by
  induction paths generalizing files with
  | nil => exact ⟨Extends.refl files, fun _ => nofun⟩
  | cons path parents inductionHypothesis =>
    rw [ensureAll, run_tryCatch]
    have adds := extends_makeDirectory path files
    rcases made : (makeDirectory path).run files with ⟨cause | _, after⟩
    · rw [made] at adds
      dsimp only
      split
      next missing =>
        obtain ⟨more, _⟩ := inductionHypothesis after
        rcases above : (ensureAll parents).run after with ⟨failed | _, middle⟩
        · rw [run_bind_of_error above]
          rw [above] at more
          exact ⟨adds.trans more, nofun⟩
        · rw [run_bind_of_ok above]
          rw [above] at more
          obtain ⟨last, there⟩ := run_ensureDirectory path middle
          exact ⟨(adds.trans more).trans last, fun ends _ here => Option.some.inj here ▸ there ends⟩
      next =>
        rw [run_unlessDirectory]
        refine ⟨adds, fun ends _ here => ?_⟩
        cases here
        by_cases there : after.isDirectory path = true
        · exact there
        · rw [if_neg there] at ends
          cases ends
    · rw [made] at adds
      exact ⟨adds, fun _ _ here => Option.some.inj here ▸ isDirectory_of_makeDirectory made⟩

/-- Making a directory with its parents makes directories under free names. -/
theorem extends_ensurePath (path : String) (files : FileTree) :
    Extends files ((ensurePath path).run files).2 := by
  rw [ensurePath]
  split
  · exact Extends.refl files
  · exact (run_ensureAll _ files).1

/-- A path under which a directory is there already; the empty one stands for where one is. -/
def HasDirectory (files : FileTree) (path : String) : Prop :=
  path.isEmpty = true ∨ files.isDirectory path = true

/-- Once a directory was made with its parents, it is there. -/
theorem hasDirectory_of_ensurePath (succeeds : Succeeds (ensurePath path) files) :
    HasDirectory ((ensurePath path).run files).2 path := by
  obtain ⟨_, ends⟩ := succeeds
  rw [ensurePath] at ends ⊢
  split
  next empty => exact .inl empty
  next named =>
    rw [if_neg named] at ends
    exact .inr ((run_ensureAll _ files).2 ends path rfl)

/-- To make a directory that is there changes nothing. -/
theorem run_ensurePath_of_hasDirectory (there : HasDirectory files path) :
    (ensurePath path).run files = (.ok (), files) := by
  rw [ensurePath]
  split
  next => rfl
  next named =>
    have here := there.resolve_left named
    obtain ⟨key, node, present⟩ := present_of_isDirectory here
    have refused : (makeDirectory path).run files = (.error (.system .alreadyExists), files) := by
      rw [run_makeDirectory, present]
    rw [ensureAll, run_tryCatch, refused]
    dsimp only
    rw [if_neg (by decide), run_unlessDirectory, if_pos here]

theorem HasDirectory.grown {after : FileTree} (there : HasDirectory files path)
    (grows : Grows files after) : HasDirectory after path :=
  there.imp_right (isDirectory_of_grows grows)

/-! ### Files -/

variable {key : Key} {mode : Nat} {content : Bytes}

theorem run_createFile (path : String) (mode : Nat) (files : FileTree) :
    (createFile path mode).run files =
      match files.find path .newFile with
      | .error cause => (.error cause, files)
      | .ok ⟨key, some (.file _ _)⟩ => (.ok key, files)
      | .ok ⟨_, some _⟩ => (.error (.system .isDirectory), files)
      | .ok ⟨key, none⟩ => (.ok key, files.insert key (.file mode [])) := by
  have looked := run_look (·.find path .newFile) files
  rw [createFile]
  rcases found : files.find path .newFile with cause | ⟨key, _ | node⟩
  · rw [found] at looked
    rw [run_bind_of_error looked]
  · rw [found] at looked
    rw [run_bind_of_ok looked]
    rfl
  · rw [found] at looked
    rw [run_bind_of_ok looked]
    cases node <;> rfl

/-- Whatever comes of it, at most a file is made, under a free name. -/
theorem steady_createFile (path : String) (mode : Nat) (files : FileTree) :
    Steady files ((createFile path mode).run files).2 ∧
      Extends files ((createFile path mode).run files).2 := by
  rw [run_createFile]
  split
  · exact ⟨.refl files, .refl files⟩
  · exact ⟨.refl files, .refl files⟩
  · exact ⟨.refl files, .refl files⟩
  next key free =>
    have none := lookup_of_find free nofun
    exact ⟨steady_insert (none ▸ .made), extends_insert none⟩

/-- Taking a lock, whether it can be taken or not, makes at most a file once its directory was to be
made. -/
theorem steady_provide (directory name : String) (files : FileTree) :
    Steady ((ensurePath directory).run files).2 ((FileLock.provide directory name).run files).2 ∧
      Extends ((ensurePath directory).run files).2
        ((FileLock.provide directory name).run files).2 := by
  rw [FileLock.provide]
  rcases made : (ensurePath directory).run files with ⟨cause | _, middle⟩
  · rw [run_bind_of_error made]
    exact ⟨.refl middle, .refl middle⟩
  · rw [run_bind_of_ok made]
    exact steady_createFile (Path.join directory name) 0o600 middle

theorem extends_provide (directory name : String) (files : FileTree) :
    Extends files ((FileLock.provide directory name).run files).2 :=
  (extends_ensurePath directory files).trans (steady_provide directory name files).2

/-- The path under which a file is made leads to it. -/
theorem find_insert (free : files.find path .newFile = .ok ⟨key, none⟩) (mode : Nat)
    (content : Bytes) :
    (files.insert key (.file mode content)).find path .newFile =
      .ok ⟨key, some (.file mode content)⟩ := by
  have none := lookup_of_find free nofun
  have made : (files.insert key (.file mode content)).lookup key = some (.file mode content) :=
    lookup_insert_self (ne_nil_of_lookup none nofun)
  obtain ⟨node, later, becomes⟩ := find_of_grows (extends_insert none).grows free fun _ => by
    rw [made]
    exact .made
  have other : node ≠ some .directory := by
    rintro rfl
    cases becomes
  rw [later, ← lookup_of_find later other, made]

/-- A file that a path leads to may be changed, and the path still leads to it. -/
theorem find_insert_of_file {purpose : Purpose}
    (found : files.find path purpose = .ok ⟨key, some (.file mode content)⟩) (mode' : Nat)
    (content' : Bytes) :
    Steady files (files.insert key (.file mode' content')) ∧
      (files.insert key (.file mode' content')).find path purpose =
        .ok ⟨key, some (.file mode' content')⟩ := by
  have here := lookup_of_find found nofun
  have steady : Steady files (files.insert key (.file mode' content')) :=
    steady_insert (here ▸ .file)
  exact ⟨steady, find_file_of_grows steady.grows found
    (lookup_insert_self (ne_nil_of_lookup here nofun))⟩

theorem run_openFile (found : files.node path = .ok (key, .file mode content)) :
    (openFile path).run files = (.ok key, files) := by
  have looked := run_look (·.node path) files
  rw [found] at looked
  rw [openFile, run_bind_of_ok looked]
  rfl

/-- A file that is there is opened, else nothing is; in no case are files changed. -/
theorem run_openFile_cases (path : String) (files : FileTree) :
    (∃ cause, (openFile path).run files = (.error cause, files)) ∨
      ∃ key mode content, files.node path = .ok (key, .file mode content) ∧
        (openFile path).run files = (.ok key, files) := by
  have looked := run_look (·.node path) files
  rcases found : files.node path with cause | ⟨key, node⟩
  · rw [found] at looked
    exact .inl ⟨cause, run_bind_of_error looked⟩
  · rw [found] at looked
    cases node with
    | file mode content => exact .inr ⟨key, mode, content, rfl, run_openFile found⟩
    | directory | link => exact .inl ⟨.system .isDirectory, run_bind_of_ok looked⟩

theorem run_setMode (found : files.node path = .ok (key, .file mode content)) (mode' : Nat) :
    (setMode path mode').run files = (.ok (), files.insert key (.file mode' content)) := by
  have looked := run_look (·.node path) files
  rw [found] at looked
  rw [setMode, run_bind_of_ok looked]
  rfl

theorem run_update (found : files.lookup key = some (.file mode content))
    (change : Bytes → Bytes) :
    (update key change).run files = (.ok (), files.insert key (.file mode (change content))) := by
  rw [update, run_bind_get, found]
  rfl

/-! ### Moving -/

/-- The files once what is under `source` has been moved under `target`. -/
def moved (source target : Key) (files : FileTree) : FileTree :=
  { files.erase target with
    nodes := (files.erase target).nodes.map fun entry =>
      if source.isPrefixOf entry.1 then (target ++ entry.1.drop source.length, entry.2)
      else entry }

/-- What has been moved is gone from where it was; elsewhere nothing changes but where it went. -/
theorem lookup_moved {source target other : Key} (named : other ≠ [])
    (apart : ¬ target <+: other) :
    (moved source target files).lookup other =
      if source <+: other then none else files.lookup other := by
  obtain ⟨nodes, home⟩ := files
  obtain ⟨name, rest, rfl⟩ := List.exists_cons_of_ne_nil named
  simp only [moved, FileTree.erase, lookup]
  induction nodes with
  | nil => exact (ite_self none).symm
  | cons entry nodes inductionHypothesis =>
    obtain ⟨place, node⟩ := entry
    by_cases same : place = target
    · subst same
      have different : name :: rest ≠ place := fun same => apart (same ▸ List.prefix_refl _)
      rw [List.filter_cons_of_neg (by simp), inductionHypothesis, List.lookup_cons,
        beq_false_of_ne different]
    · rw [List.filter_cons_of_pos (by simpa using same), List.map_cons, List.lookup_cons]
      by_cases below : source <+: place
      · have elsewhere : name :: rest ≠ target ++ place.drop source.length :=
          fun same => apart (same ▸ List.prefix_append _ _)
        rw [if_pos (List.isPrefixOf_iff_prefix.mpr below)]
        dsimp only
        rw [beq_false_of_ne elsewhere]
        dsimp only
        rw [inductionHypothesis]
        by_cases gone : source <+: name :: rest
        · rw [if_pos gone, if_pos gone]
        · have different : name :: rest ≠ place := fun same => gone (same ▸ below)
          rw [if_neg gone, if_neg gone, List.lookup_cons, beq_false_of_ne different]
      · rw [if_neg fun same => below (List.isPrefixOf_iff_prefix.mp same)]
        dsimp only
        rw [inductionHypothesis, List.lookup_cons]
        cases here : name :: rest == place with
        | false => rfl
        | true => exact (if_neg fun gone => below (eq_of_beq here ▸ gone)).symm

/-- A rename that fails changes nothing; else what the source names is moved, unless the target
names the same. -/
theorem run_rename_cases (source target : String) (files : FileTree) :
    (∃ cause, (rename source target).run files = (.error cause, files)) ∨
      ∃ sourceKey targetKey node found, files.find source .name = .ok ⟨sourceKey, some node⟩ ∧
        files.find target .name = .ok ⟨targetKey, found⟩ ∧
        (rename source target).run files =
          (.ok (), if sourceKey = targetKey then files else moved sourceKey targetKey files) := by
  have lookedSource := run_look (·.find source .name) files
  have lookedTarget := run_look (·.find target .name) files
  rw [rename]
  rcases here : files.find source .name with cause | ⟨sourceKey, node⟩
  · rw [here] at lookedSource
    exact .inl ⟨cause, run_bind_of_error lookedSource⟩
  rw [here] at lookedSource
  rw [run_bind_of_ok lookedSource]
  rcases there : files.find target .name with cause | ⟨targetKey, found⟩
  · rw [there] at lookedTarget
    exact .inl ⟨cause, run_bind_of_error lookedTarget⟩
  rw [there] at lookedTarget
  rw [run_bind_of_ok lookedTarget]
  cases node with
  | none => exact .inl ⟨_, rfl⟩
  | some node =>
    have goes : (do
          if sourceKey = targetKey then return
          modify (moved sourceKey targetKey) : FileAction Unit).run files =
        (.ok (), if sourceKey = targetKey then files else moved sourceKey targetKey files) := by
      split <;> rfl
    match node, found with
    | .directory, none => exact .inr ⟨_, _, _, _, rfl, rfl, goes⟩
    | .directory, some .directory =>
      dsimp only
      rw [run_bind_get]
      cases (files.children targetKey).isEmpty with
      | true => exact .inr ⟨_, _, _, _, rfl, rfl, goes⟩
      | false => exact .inl ⟨_, rfl⟩
    | .directory, some (.file _ _) => exact .inl ⟨_, rfl⟩
    | .directory, some (.link _) => exact .inl ⟨_, rfl⟩
    | .file _ _, some .directory | .link _, some .directory => exact .inl ⟨_, rfl⟩
    | .file _ _, none | .file _ _, some (.file _ _) | .file _ _, some (.link _) =>
      exact .inr ⟨_, _, _, _, rfl, rfl, goes⟩
    | .link _, none | .link _, some (.file _ _) | .link _, some (.link _) =>
      exact .inr ⟨_, _, _, _, rfl, rfl, goes⟩

end FileAction

end NicScope
