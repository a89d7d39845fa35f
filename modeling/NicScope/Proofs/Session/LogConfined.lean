/-
This file says what opening the operation log does to the files. Where the path of the log leads
into the directory of the log, whatever is made, moved or written is in that directory, and
whether this fails makes no difference outside. Only a log that has grown too large leaves a trace:
the notice that it was moved aside is written under a lock, and the lock is elsewhere.
-/

import NicScope.Proofs.Host.Parallel
import NicScope.Proofs.Session.LogKeeping

namespace NicScope

open FileTree

namespace OperationLog

variable {inside : Key → Prop} {files : FileTree} {path : String} {settings : Settings}
  {directory : Key}

/-! ### Making the log -/

/-- An action that changes nothing outside, and leaves an empty log inside if it does not fail. -/
structure MakesInside (inside : Key → Prop) (path : String) (action : FileAction Unit)
    (files : FileTree) : Prop where
  agree : AgreeOutside inside files (action.run files).2
  log : (action.run files).1 = .ok () → ∃ key, inside key ∧
    (action.run files).2.find path .newFile = .ok ⟨key, some (.file mode [])⟩

theorem MakesInside.of_refused {action : FileAction Unit} {cause : IoError}
    (refused : action.run files = (.error cause, files)) :
    MakesInside inside path action files := by
  constructor
  · rw [refused]
    exact .refl files
  · rw [refused]
    exact nofun

/-- Where the path of the log leads to no file, and to a free name only inside, the log is made
inside. -/
theorem makesInside_make
    (missing : ∀ key mode content,
      files.find path .newFile ≠ .ok ⟨key, some (.file mode content)⟩)
    (within : ∀ key, files.find path .newFile = .ok ⟨key, none⟩ → inside key) :
    MakesInside inside path (make path) files := by
  have created := FileAction.run_createFile path 0o644 files
  rcases found : files.find path .newFile with cause | ⟨key, _ | node⟩
  · rw [found] at created
    exact .of_refused (by rw [make, run_bind_of_error created])
  · obtain ⟨makes, _, stays⟩ := run_make found
    constructor
    · rw [makes]
      exact (AgreeOutside.insert_inside files (within key found) _).trans
        (.insert_inside _ (within key found) _)
    · rw [makes]
      exact fun _ => ⟨key, within key found, stays⟩
  · rw [found] at created
    cases node with
    | file mode content => exact absurd found (missing key mode content)
    | directory | link _ => exact .of_refused (by rw [make, run_bind_of_error created])

/-! ### A log in its directory -/

/-- The paths of the log and of the one moved aside lead to their names in the directory, and the
log is no link to something elsewhere. -/
structure Confined (settings : Settings) (directory : Key) (files : FileTree) : Prop where
  way : ∀ key left, files.LooksAlong (filePath settings) .name key left →
    ¬ directory <+: key ∨ key = directory ∨ left = []
  name : ∀ place, files.find (filePath settings) .name = .ok place →
    place.key = directory ++ ["operations.log"]
  backup : ∀ place, files.find (backupPath settings) .name = .ok place →
    place.key = directory ++ ["operations.log.old"]
  log : ∀ place, files.find (filePath settings) .newFile = .ok place → directory <+: place.key

/-- A log that is too large. -/
def Oversized (settings : Settings) (files : FileTree) : Prop :=
  ∃ bytes, files.size (filePath settings) = .ok bytes ∧ bytes > maxBytes

theorem Oversized.ne_directory (large : Oversized settings files) {key : Key} {node : Option Node}
    (found : files.find (filePath settings) .name = .ok ⟨key, node⟩) : node ≠ some .directory := by
  rintro rfl
  obtain ⟨bytes, size, beyond⟩ := large
  have leads := node_eq_ok_iff.mpr (find_target_of_name found nofun)
  rw [FileTree.size, leads] at size
  cases size
  exact absurd beyond (by decide)

/-- A log that is too large and is moved aside. -/
def MovesAside (settings : Settings) (files : FileTree) : Prop :=
  Oversized settings files ∧ ((renew settings).run files).1 = .ok ()

section Moving

variable (directory)

/-- The files once the log has been moved aside. -/
def aside (files : FileTree) : FileTree :=
  FileAction.moved (directory ++ ["operations.log"]) (directory ++ ["operations.log.old"]) files

variable {directory}

theorem lookup_aside {key : Key} (named : key ≠ [])
    (source : ¬ directory ++ ["operations.log"] <+: key)
    (target : ¬ directory ++ ["operations.log.old"] <+: key) :
    (aside directory files).lookup key = files.lookup key := by
  rw [aside, FileAction.lookup_moved named target, if_neg source]

theorem agree_aside (directory : Key) (files : FileTree) :
    AgreeOutside (directory <+: ·) files (aside directory files) := by
  refine ⟨rfl, fun key apart => ?_⟩
  by_cases named : key = []
  · rw [named]
    rfl
  · have outside (name : String) : ¬ directory ++ [name] <+: key :=
      fun below => apart ((List.prefix_append directory [name]).trans below)
    exact lookup_aside named (outside _) (outside _)

/-- The directory stays what it is. -/
theorem lookup_aside_directory :
    (aside directory files).lookup directory = files.lookup directory := by
  by_cases named : directory = []
  · rw [named]
    rfl
  · have longer (name : String) : ¬ directory ++ [name] <+: directory := by
      intro below
      have short := below.length_le
      rw [List.length_append, List.length_singleton] at short
      omega
    exact lookup_aside named (longer _) (longer _)

/-- Of two names in a directory neither is below the other. -/
theorem not_below {name other : String} (different : name ≠ other) :
    ¬ directory ++ [name] <+: directory ++ [other] := by
  intro below
  have same := below.eq_of_length (by rw [List.length_append, List.length_append]; rfl)
  exact different (List.singleton_inj.mp (List.append_cancel_left same))

theorem lookup_aside_log : (aside directory files).lookup (directory ++ ["operations.log"]) =
    none := by
  have apart : ¬ directory ++ ["operations.log.old"] <+: directory ++ ["operations.log"] :=
    not_below (by decide)
  have named : directory ++ ["operations.log"] ≠ [] :=
    List.append_ne_nil_of_right_ne_nil directory (List.cons_ne_nil _ _)
  rw [aside, FileAction.lookup_moved named apart, if_pos (List.prefix_refl _)]

/-- The name of a log that has been moved aside is free. -/
theorem Confined.find_aside (confined : Confined settings directory files)
    (large : Oversized settings files) {node : Node}
    (found : files.find (filePath settings) .name =
      .ok ⟨directory ++ ["operations.log"], some node⟩) :
    (aside directory files).find (filePath settings) .target =
      .ok ⟨directory ++ ["operations.log"], none⟩ := by
  have alike : ∀ key left, files.LooksAlong (filePath settings) .name key left →
      SameAt (directory ++ ["operations.log"]) .name files (aside directory files) key left := by
    intro key left looks
    rcases confined.way key left looks with outside | rfl | rfl
    · exact .inl ((agree_aside directory files).same key outside)
    · exact .inl lookup_aside_directory
    · have ends := find_eq_ok_iff.mpr ⟨looks.1, looks.2.leads rfl⟩
      exact .inr ⟨confined.name _ ends, rfl, rfl⟩
  rcases meet_find _ (agree_aside directory files).home alike with same | ⟨_, ends⟩
  · -- The log is no directory, which would not be too large: so what has its name is gone.
    rw [found] at same
    cases lookup_aside_log.symm.trans (lookup_of_find same (large.ne_directory found))
  · rw [lookup_aside_log] at ends
    exact find_target_of_name ends nofun

/-- Whether a log that is too large can be moved aside or not, a new one is made inside. -/
theorem Confined.makesInside_renew (confined : Confined settings directory files)
    (large : Oversized settings files) :
    MakesInside (directory <+: ·) (filePath settings) (renew settings) files := by
  rcases FileAction.run_rename_cases (filePath settings) (backupPath settings) files with
    ⟨cause, fails⟩ | ⟨source, target, node, old, found, there, moves⟩
  · exact .of_refused (by rw [renew, run_bind_of_error fails])
  · obtain rfl : source = _ := confined.name _ found
    obtain rfl : target = _ := confined.backup _ there
    have apart : directory ++ ["operations.log"] ≠ directory ++ ["operations.log.old"] :=
      fun same => absurd (List.append_cancel_left same) (by decide)
    have moved : (FileAction.rename (filePath settings) (backupPath settings)).run files =
        (.ok (), aside directory files) := by
      rw [moves, if_neg apart]
      rfl
    have free := confined.find_aside large found
    have made : MakesInside (directory <+: ·) (filePath settings) (make (filePath settings))
        (aside directory files) := by
      refine makesInside_make (fun key mode content opens => ?_) fun key opens => ?_
      · cases free.symm.trans (find_target_of_newFile opens)
      · cases free.symm.trans (find_target_of_newFile opens)
        exact List.prefix_append _ _
    constructor
    · rw [renew, run_bind_of_ok moved]
      exact (agree_aside directory files).trans made.agree
    · rw [renew, run_bind_of_ok moved]
      exact made.log

end Moving

/-! ### Opening the log -/

/-- The files once the directory of the log was to be made. -/
def withLogDirectory (settings : Settings) (files : FileTree) : FileTree :=
  ((FileAction.ensurePath settings.logDirectory).run files).2

/-- The files once the lock of the log was to be taken. -/
def withLogLock (settings : Settings) (files : FileTree) : FileTree :=
  ((FileLock.provide settings.lockDirectory "op_log").run files).2

/-- Outside, the files are what they were; but if it was announced that the log was moved aside,
the lock that this takes has been made. -/
structure Opens (announced : Prop) (settings : Settings) (directory : Key)
    (files after : FileTree) : Prop where
  loud : announced → AgreeOutside (directory <+: ·) (withLogLock settings files) after
  silent : ¬ announced → AgreeOutside (directory <+: ·) files after

/-- When the log is opened, it is announced that it was moved aside. -/
def Announced (settings : Settings) (files : FileTree) : Prop :=
  Succeeds (FileAction.ensurePath settings.logDirectory) files ∧
    MovesAside settings (withLogDirectory settings files)

/-- Writing to a log that is inside changes nothing outside but what its lock needs. -/
theorem agree_write {log : OperationLog} {host : Host} {key : Key} {old : Nat} {content : Bytes}
    (within : inside key)
    (holds : host.files.find log.path .newFile = .ok ⟨key, some (.file old content)⟩)
    (text : String) :
    AgreeOutside inside ((FileLock.provide log.lockDirectory "op_log").run host.files).2
      (log.write text host).2.files := by
  have adds := FileAction.extends_provide log.lockDirectory "op_log" host.files
  rw [files_write]
  rcases FileLock.acquire_cases log.lockDirectory "op_log" host with
    ⟨cause, refused⟩ | ⟨lock, files, provided, _, acquired⟩
  · rw [append_eq, run_bind_of_error refused]
    exact .refl _
  · rw [provided] at adds ⊢
    have still := find_file_of_grows adds.grows holds (adds.keeps (lookup_of_find holds nofun))
    rw [run_append_of_taken acquired still text]
    exact (AgreeOutside.insert_inside files within _).trans (.insert_inside _ within _)

/-- Once its directory is there, opening a log changes nothing outside, unless one that is too large
is moved aside: then what its lock needs is made as well. -/
theorem Confined.opens_tend {host : Host} (confined : Confined settings directory host.files)
    (apart : FileAction.Apart (directory <+: ·) settings.lockDirectory "op_log" host.files)
    {log : OperationLog} (path : log.path = filePath settings)
    (locks : log.lockDirectory = settings.lockDirectory) :
    Opens (MovesAside settings host.files) settings directory host.files
      ((tend settings log).run host).2.files := by
  rw [tend, run_bind_get]
  rcases size : host.files.size (filePath settings) with cause | bytes
  · have makes : MakesInside (directory <+: ·) (filePath settings) (make (filePath settings))
        host.files :=
      makesInside_make (find_ne_file_of_size size) fun key free => confined.log _ free
    dsimp only
    rw [Host.files_onFiles_map]
    refine ⟨fun announced => ?_, fun _ => makes.agree⟩
    obtain ⟨⟨_, same, _⟩, _⟩ := announced
    cases size.symm.trans same
  · by_cases large : bytes > maxBytes
    · have oversized : Oversized settings host.files := ⟨bytes, size, large⟩
      obtain ⟨agree, makes⟩ := confined.makesInside_renew oversized
      have renewing := Host.run_onFiles (renew settings) host
      dsimp only
      rw [if_pos large]
      rcases done : (renew settings).run host.files with ⟨cause | _, files⟩
      · rw [done] at renewing agree
        rw [run_bind_of_error renewing]
        refine ⟨fun announced => ?_, fun _ => agree⟩
        cases (congrArg Prod.fst done).symm.trans announced.2
      · rw [done] at renewing agree makes
        obtain ⟨key, within, holds⟩ := makes rfl
        rw [run_bind_of_ok renewing, run_bind_now]
        let renewed : Host := { host with files, readings := host.readings + 1 }
        have writes : AgreeOutside _ _ (log.write _ renewed).2.files :=
          agree_write within (path ▸ holds)
            (notice (host.clock host.readings) (backupPath settings))
        rw [locks] at writes
        refine ⟨fun _ => (apart.parallel_provide agree).agree.trans writes, fun silent => ?_⟩
        exact absurd ⟨oversized, congrArg Prod.fst done⟩ silent
    · dsimp only
      rw [if_neg large]
      refine ⟨fun announced => ?_, fun _ => .refl host.files⟩
      obtain ⟨⟨_, same, beyond⟩, _⟩ := announced
      cases size.symm.trans same
      exact absurd beyond large

/-- So whatever comes of it, opening the log changes nothing outside once its directory was to be
made, but for what the lock of a log needs that is moved aside. -/
theorem Confined.opens_start {host : Host}
    (confined : Confined settings directory (withLogDirectory settings host.files))
    (apart : FileAction.Apart (directory <+: ·) settings.lockDirectory "op_log"
      (withLogDirectory settings host.files)) :
    Opens (Announced settings host.files) settings directory (withLogDirectory settings host.files)
      ((start settings).run host).2.files := by
  have directories := Host.run_onFiles (FileAction.ensurePath settings.logDirectory) host
  rcases made : (FileAction.ensurePath settings.logDirectory).run host.files with
    ⟨cause | _, reached⟩
  all_goals
    have here : withLogDirectory settings host.files = reached := congrArg Prod.snd made
    rw [here] at confined apart ⊢
    rw [made] at directories
  · rw [start, run_bind_of_error directories]
    refine ⟨fun announced => ?_, fun _ => .refl reached⟩
    obtain ⟨⟨_, succeeds⟩, _⟩ := announced
    cases (congrArg Prod.fst made).symm.trans succeeds
  · have announced : Announced settings host.files ↔ MovesAside settings reached := by
      rw [Announced, here]
      exact and_iff_right ⟨(), congrArg Prod.fst made⟩
    let opening : Host := { host with files := reached, readings := host.readings + 1 }
    have confined : Confined settings directory opening.files := confined
    rw [run_start made, announced]
    exact confined.opens_tend apart (show (opened settings host).path = filePath settings from rfl)
      rfl

end OperationLog

end NicScope
