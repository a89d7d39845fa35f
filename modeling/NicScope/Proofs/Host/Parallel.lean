/-
This file compares operations on files in two trees that agree outside. An operation that takes
paths which look up no name inside does the same in both, and the trees agree afterwards; so a
directory is made with its parents, and a file is opened or made, or fails to be, whatever is
inside.
-/

import NicScope.Proofs.Host.Looking
import NicScope.Proofs.Host.Making
import NicScope.Proofs.Parallel

namespace NicScope

open FileTree

namespace FileAction

variable {α : Type} {inside : Key → Prop} {tree other : FileTree} {path : String}

/-- An operation that comes to the same in two trees and leaves them in agreement. -/
abbrev Parallel (inside : Key → Prop) (action : FileAction α) (tree other : FileTree) : Prop :=
  NicScope.Parallel (AgreeOutside inside) action.run tree other

theorem Parallel.tryCatch {action : FileAction α} {handler : IoError → FileAction α}
    (one : Parallel inside action tree other)
    (rest : ∀ cause, (action.run tree).1 = .error cause →
      Parallel inside (handler cause) (action.run tree).2 (action.run other).2) :
    Parallel inside (tryCatch action handler) tree other := by
  obtain ⟨result, agree⟩ := one
  rcases ran : action.run tree with ⟨cause | given, after⟩
  · have rest := rest cause (congrArg Prod.fst ran)
    rcases goes : action.run other with ⟨outcome, otherAfter⟩
    rw [ran, goes] at result rest
    obtain rfl : outcome = .error cause := result
    constructor
    · rw [run_tryCatch, run_tryCatch, ran, goes]
      exact rest.result
    · rw [run_tryCatch, run_tryCatch, ran, goes]
      exact rest.agree
  · rcases goes : action.run other with ⟨outcome, otherAfter⟩
    rw [ran, goes] at result agree
    obtain rfl : outcome = .ok given := result
    constructor
    · rw [run_tryCatch, run_tryCatch, ran, goes]
    · rw [run_tryCatch, run_tryCatch, ran, goes]
      exact agree

/-! ### Directories -/

theorem parallel_makeDirectory (avoids : tree.Avoids inside path)
    (agree : AgreeOutside inside tree other) :
    Parallel inside (makeDirectory path) tree other := by
  have same := avoids.find_eq agree .newDirectory
  constructor
  · rw [run_makeDirectory, run_makeDirectory, same]
    rcases tree.find path .newDirectory with cause | ⟨key, _ | node⟩ <;> rfl
  · rw [run_makeDirectory, run_makeDirectory, same]
    rcases tree.find path .newDirectory with cause | ⟨key, _ | node⟩
    · exact agree
    · exact agree.insert key .directory
    · exact agree

theorem parallel_unlessDirectory (avoids : tree.Avoids inside path)
    (agree : AgreeOutside inside tree other) (cause : IoError) :
    Parallel inside (do if !(← get).isDirectory path then throw cause : FileAction Unit)
      tree other := by
  constructor
  · rw [run_unlessDirectory, run_unlessDirectory, avoids.isDirectory_eq agree]
  · rw [run_unlessDirectory, run_unlessDirectory]
    exact agree

/-- What the path looks up is asked where the directory has been made, where it looks up most. -/
theorem parallel_ensureDirectory
    (avoids : ((ensureDirectory path).run tree).2.Avoids inside path)
    (agree : AgreeOutside inside tree other) :
    Parallel inside (ensureDirectory path) tree other := by
  have made := parallel_makeDirectory (avoids.earlier (run_ensureDirectory path tree).1) agree
  refine made.tryCatch fun cause failed => parallel_unlessDirectory ?_ made.agree cause
  rw [ensureDirectory, run_tryCatch] at avoids
  rcases ran : (makeDirectory path).run tree with ⟨outcome, after⟩
  rw [ran] at failed avoids
  obtain rfl : outcome = .error cause := failed
  dsimp only at avoids
  rw [run_unlessDirectory] at avoids
  exact avoids

theorem parallel_ensureAll {paths : List String}
    (avoids : ∀ path ∈ paths, ((ensureAll paths).run tree).2.Avoids inside path)
    (agree : AgreeOutside inside tree other) :
    Parallel inside (ensureAll paths) tree other := by
  induction paths generalizing tree other with
  | nil => exact ⟨rfl, agree⟩
  | cons path parents inductionHypothesis =>
    have first := parallel_makeDirectory
      ((avoids path List.mem_cons_self).earlier (run_ensureAll (path :: parents) tree).1) agree
    refine first.tryCatch fun cause failed => ?_
    have agree := first.agree
    rw [ensureAll, run_tryCatch] at avoids
    rcases ran : (makeDirectory path).run tree with ⟨outcome, middle⟩
    rw [ran] at failed avoids agree
    obtain rfl : outcome = .error cause := failed
    dsimp only at avoids
    split
    next missing =>
      rw [if_pos missing] at avoids
      rcases above : (ensureAll parents).run middle with ⟨outcome | _, reached⟩
      · rw [run_bind_of_error above] at avoids
        have made := inductionHypothesis (fun path member =>
          above ▸ avoids path (List.mem_cons_of_mem _ member)) agree
        refine made.step fun _ ended => ?_
        cases (congrArg Prod.fst above).symm.trans ended
      · rw [run_bind_of_ok above] at avoids
        have adds := (run_ensureDirectory path reached).1
        have made := inductionHypothesis (fun path member =>
          above ▸ (avoids path (List.mem_cons_of_mem _ member)).earlier adds) agree
        refine made.step fun _ _ => parallel_ensureDirectory ?_ made.agree
        rw [above]
        exact avoids path List.mem_cons_self
    next present =>
      rw [if_neg present] at avoids
      refine parallel_unlessDirectory ?_ agree cause
      rw [run_unlessDirectory] at avoids
      exact avoids path List.mem_cons_self

/-- The paths that are looked at when a directory is made with its parents. -/
def pathsOf (path : String) : List String :=
  path :: Path.parents path

theorem parallel_ensurePath
    (avoids : ∀ above ∈ pathsOf path, ((ensurePath path).run tree).2.Avoids inside above)
    (agree : AgreeOutside inside tree other) :
    Parallel inside (ensurePath path) tree other := by
  unfold ensurePath at avoids ⊢
  split
  · exact ⟨rfl, agree⟩
  next named =>
    rw [if_neg named] at avoids
    exact parallel_ensureAll avoids agree

/-! ### A directory at whose place the trees differ -/

section Ending

variable {stop : Key} (within : inside stop)

include within

/-- The trees still agree, and the directory lacks its parent in both or in neither. -/
theorem agree_makeDirectory (ends : tree.EndsAt inside stop path)
    (agree : AgreeOutside inside tree other) :
    AgreeOutside inside ((makeDirectory path).run tree).2 ((makeDirectory path).run other).2 ∧
      (((makeDirectory path).run other).1 = .error (.system .noEntry) ↔
        ((makeDirectory path).run tree).1 = .error (.system .noEntry)) := by
  rw [run_makeDirectory, run_makeDirectory]
  rcases ends.find_cases agree with same | ⟨first, second⟩
  · rw [same]
    rcases tree.find path .newDirectory with cause | ⟨key, _ | node⟩
    · exact ⟨agree, Iff.rfl⟩
    · exact ⟨agree.insert key .directory, Iff.rfl⟩
    · exact ⟨agree, Iff.rfl⟩
  · have made (files : FileTree) : AgreeOutside inside files (files.insert stop .directory) :=
      .insert_inside files within .directory
    rw [first, second]
    have present : (.error (.system .alreadyExists) : Except IoError Unit) ≠
        .error (.system .noEntry) :=
      fun same => absurd (Except.error.inj same) (by decide)
    cases tree.lookup stop with
    | none =>
      cases other.lookup stop with
      | none => exact ⟨((made tree).symm.trans agree).trans (made other), Iff.rfl⟩
      | some node => exact ⟨(made tree).symm.trans agree, iff_of_false present nofun⟩
    | some node =>
      cases other.lookup stop with
      | none => exact ⟨agree.trans (made other), iff_of_false nofun present⟩
      | some node => exact ⟨agree, Iff.rfl⟩

end Ending

theorem files_ensureDirectory (path : String) (files : FileTree) :
    ((ensureDirectory path).run files).2 = ((makeDirectory path).run files).2 := by
  rw [ensureDirectory, run_tryCatch]
  rcases (makeDirectory path).run files with ⟨cause | _, after⟩
  · dsimp only
    rw [run_unlessDirectory]
  · rfl

/-- A directory that lacks its parent is made behind its parents. -/
theorem files_ensureAll_of_lacking {parents : List String} {files : FileTree}
    (lacks : ((makeDirectory path).run files).1 = .error (.system .noEntry)) :
    ((ensureAll (path :: parents)).run files).2 =
      ((do ensureAll parents; ensureDirectory path : FileAction Unit).run
        ((makeDirectory path).run files).2).2 := by
  rw [ensureAll, run_tryCatch]
  rcases made : (makeDirectory path).run files with ⟨outcome, after⟩
  rw [made] at lacks
  obtain rfl : outcome = .error (.system .noEntry) := lacks
  rfl

/-- Else nothing more is made. -/
theorem files_ensureAll_of_settled {parents : List String} {files : FileTree}
    (settled : ((makeDirectory path).run files).1 ≠ .error (.system .noEntry)) :
    ((ensureAll (path :: parents)).run files).2 = ((makeDirectory path).run files).2 := by
  rw [ensureAll, run_tryCatch]
  rcases made : (makeDirectory path).run files with ⟨cause | _, after⟩
  · rw [made] at settled
    have other : cause ≠ .system .noEntry := fun same => settled (congrArg Except.error same)
    dsimp only
    rw [if_neg other, run_unlessDirectory]
  · rfl

/-- The directories above are made in both trees or fail in both. -/
theorem agree_behind {stop : Key} (within : inside stop) {parents : List String}
    (ends : ((do ensureAll parents; ensureDirectory path : FileAction Unit).run tree).2.EndsAt
      inside stop path)
    (avoids : ∀ above ∈ parents,
      ((do ensureAll parents; ensureDirectory path : FileAction Unit).run tree).2.Avoids
        inside above)
    (agree : AgreeOutside inside tree other) :
    AgreeOutside inside ((do ensureAll parents; ensureDirectory path : FileAction Unit).run tree).2
      ((do ensureAll parents; ensureDirectory path : FileAction Unit).run other).2 := by
  rcases made : (ensureAll parents).run tree with ⟨cause | _, reached⟩
  · rw [run_bind_of_error made] at ends avoids ⊢
    obtain ⟨result, agree⟩ := parallel_ensureAll (made ▸ avoids) agree
    rcases goes : (ensureAll parents).run other with ⟨outcome, otherReached⟩
    rw [made, goes] at result agree
    obtain rfl : outcome = .error cause := result
    rw [run_bind_of_error goes]
    exact agree
  · rw [run_bind_of_ok made] at ends avoids ⊢
    have adds := (run_ensureDirectory path reached).1
    have apart : ∀ above ∈ parents, ((ensureAll parents).run tree).2.Avoids inside above :=
      fun above member => made ▸ (avoids above member).earlier adds
    obtain ⟨result, agree⟩ := parallel_ensureAll apart agree
    rcases goes : (ensureAll parents).run other with ⟨outcome, otherReached⟩
    rw [made, goes] at result agree
    obtain rfl : outcome = .ok () := result
    rw [run_bind_of_ok goes, files_ensureDirectory, files_ensureDirectory]
    exact (agree_makeDirectory within (ends.earlier adds) agree).1

/-- Making a directory whose place is inside leaves the trees in agreement: what is made above it
is the same in both. -/
theorem agree_ensurePath {stop : Key} (within : inside stop)
    (ends : ((ensurePath path).run tree).2.EndsAt inside stop path)
    (avoids : ∀ above ∈ Path.parents path, ((ensurePath path).run tree).2.Avoids inside above)
    (agree : AgreeOutside inside tree other) :
    AgreeOutside inside ((ensurePath path).run tree).2 ((ensurePath path).run other).2 := by
  unfold ensurePath at ends avoids ⊢
  split
  · exact agree
  next named =>
    rw [if_neg named] at ends avoids
    have adds := (run_ensureAll (path :: Path.parents path) tree).1
    obtain ⟨made, missing⟩ := agree_makeDirectory within (ends.earlier adds) agree
    by_cases lacks : ((makeDirectory path).run tree).1 = .error (.system .noEntry)
    · rw [files_ensureAll_of_lacking lacks] at ends avoids ⊢
      rw [files_ensureAll_of_lacking (missing.mpr lacks)]
      exact agree_behind within ends avoids made
    · rw [files_ensureAll_of_settled lacks,
        files_ensureAll_of_settled fun lacking => lacks (missing.mp lacking)]
      exact made

/-! ### Files -/

theorem parallel_createFile (avoids : tree.Avoids inside path)
    (agree : AgreeOutside inside tree other) (mode : Nat) :
    Parallel inside (createFile path mode) tree other := by
  have same := avoids.find_eq agree .newFile
  constructor
  · rw [run_createFile, run_createFile, same]
    rcases tree.find path .newFile with cause | ⟨key, _ | node⟩
    · rfl
    · rfl
    · cases node <;> rfl
  · rw [run_createFile, run_createFile, same]
    rcases tree.find path .newFile with cause | ⟨key, _ | node⟩
    · exact agree
    · exact agree.insert key (.file mode [])
    · cases node <;> exact agree

/-- A lock whose paths look up no name inside, once its directory has been made. -/
structure Apart (inside : Key → Prop) (directory name : String) (files : FileTree) : Prop where
  directories : ∀ above ∈ pathsOf directory,
    ((ensurePath directory).run files).2.Avoids inside above
  file : ((ensurePath directory).run files).2.Avoids inside (Path.join directory name)

theorem Apart.of_listed {directory name : String} {files : FileTree}
    (directories : ∀ above ∈ pathsOf directory,
      ((ensurePath directory).run files).2.ListedOutside inside above)
    (file : ((ensurePath directory).run files).2.ListedOutside inside (Path.join directory name)) :
    Apart inside directory name files :=
  ⟨fun above member => (directories above member).avoids, file.avoids⟩

/-- Such a lock is taken in both trees or in neither. -/
theorem Apart.parallel_provide {directory name : String}
    (apart : Apart inside directory name tree) (agree : AgreeOutside inside tree other) :
    Parallel inside (FileLock.provide directory name) tree other := by
  have first := parallel_ensurePath apart.directories agree
  exact first.step fun _ _ => parallel_createFile apart.file first.agree 0o600

/-- In a tree that agrees outside the lock is apart as well. -/
theorem Apart.agreeing {directory name : String} (apart : Apart inside directory name tree)
    (agree : AgreeOutside inside tree other) : Apart inside directory name other := by
  have made := (parallel_ensurePath apart.directories agree).agree
  exact ⟨fun above member => (apart.directories above member).agreeing made,
    apart.file.agreeing made⟩

end FileAction

end NicScope
