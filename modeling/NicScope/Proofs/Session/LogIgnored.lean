/-
This file says that the operation log never influences a command. Two hosts whose files agree
outside the directory of the log may have any log in it, or something else in its place: a run comes
to the same on both. That takes paths which lead past the directory. And where a log is moved aside
a lock is taken to say so, which must not make anything that the command looks at afterwards: a path
that leads through the file of that lock leads elsewhere once there is one.
-/

import NicScope.Proofs.Session.LogConfined
import NicScope.Proofs.Session.RequestTarget
import NicScope.Proofs.Session.Views

namespace NicScope

open FileTree OperationLog

variable {τ : Type} {settings : Settings} {directory : Key}
  {files tree other : FileTree}

/-! ### Interfaces -/

namespace Target

/-- A name that is looked for among the interfaces. -/
def IsInterface (name : String) : Prop :=
  ¬ name.utf8ByteSize ≥ PciAddress.maxTextBytes ∧
    (name.isEmpty || name.toList.contains '/') = false

/-- The links that lead to the device behind an interface and to its driver. -/
def interfacePaths (systemRoot name : String) : List String :=
  let device := Path.join (Path.join (Path.join systemRoot "class/net") name) "device"
  [device, Path.join device "driver"]

theorem linkName?_congr {path : String} (same : other.find path .name = tree.find path .name) :
    linkName? other path = linkName? tree path := by
  rw [linkName?, linkName?, readLink, readLink, same]

/-- Names are resolved to the same where the links of the interfaces are the same. -/
theorem resolve_congr {systemRoot name : String}
    (same : IsInterface name → ∀ path ∈ interfacePaths systemRoot name,
      other.find path .name = tree.find path .name) :
    resolve other systemRoot name = resolve tree systemRoot name := by
  have found : ofInterface other systemRoot name = ofInterface tree systemRoot name := by
    rw [ofInterface, ofInterface]
    dsimp only
    split
    · rfl
    next short =>
      split
      · rfl
      next plain =>
        have paths := same ⟨short, eq_false_of_ne_true plain⟩
        rw [linkName?_congr (paths _ List.mem_cons_self),
          linkName?_congr (paths _ (List.mem_cons_of_mem _ List.mem_cons_self))]
  rw [resolve, resolve, found]

end Target

/-! ### Paths past the log -/

namespace OperationLog

/-- The files once the directory of the locks was to be made. -/
def withLockDirectory (settings : Settings) (files : FileTree) : FileTree :=
  ((FileAction.ensurePath settings.lockDirectory).run files).2

/-- No name in the directory of the log is looked up along the paths of locks and interfaces, nor
along that of the directory itself before it ends. -/
structure Apart (settings : Settings) (directory : Key) (files : FileTree) : Prop where
  own : files.EndsAt (directory <+: ·) directory settings.logDirectory
  above : ∀ path ∈ Path.parents settings.logDirectory, files.Avoids (directory <+: ·) path
  locks : ∀ path ∈ FileAction.pathsOf settings.lockDirectory, files.Avoids (directory <+: ·) path
  lock : ∀ name ∈ ["op_log", Command.lockName],
    files.Avoids (directory <+: ·) (Path.join settings.lockDirectory name)
  interfaces : ∀ name, Target.IsInterface name →
    ∀ path ∈ Target.interfacePaths settings.systemRoot name, ∀ key left,
      files.LooksAlong path .name key left → ¬ directory <+: key

/-- Taking the lock of the log makes nothing that the paths of the other lock and of the interfaces
look up; and the directory of the locks is made whole or not at all. -/
structure Unnoticed (settings : Settings) (files : FileTree) : Prop where
  whole : Succeeds (FileAction.ensurePath settings.lockDirectory) files ∨
    withLockDirectory settings files = files
  lock : ∀ key left, (withLockDirectory settings files).LooksAlong
      (Path.join settings.lockDirectory Command.lockName) .newFile key left →
    (withLogLock settings files).lookup key = (withLockDirectory settings files).lookup key
  interfaces : ∀ name, Target.IsInterface name →
    ∀ path ∈ Target.interfacePaths settings.systemRoot name, ∀ key left,
      files.LooksAlong path .name key left →
        (withLogLock settings files).lookup key = files.lookup key

/-! ### What commands see -/

theorem extends_withLockDirectory (settings : Settings) (files : FileTree) :
    Extends files (withLockDirectory settings files) :=
  FileAction.extends_ensurePath settings.lockDirectory files

theorem steady_withLogLock (settings : Settings) (files : FileTree) :
    Steady (withLockDirectory settings files) (withLogLock settings files) :=
  (FileAction.steady_provide settings.lockDirectory "op_log" files).1

/-- Where trees agree outside, commands see the same. -/
theorem sameView_of_agree
    (lock : FileAction.Apart (directory <+: ·) settings.lockDirectory Command.lockName tree)
    (interfaces : ∀ name, Target.IsInterface name →
      ∀ path ∈ Target.interfacePaths settings.systemRoot name, ∀ key left,
        tree.LooksAlong path .name key left → ¬ directory <+: key)
    (agree : AgreeOutside (directory <+: ·) tree other) : SameView settings tree other where
  target name := Target.resolve_congr fun good path member =>
    find_congr agree.home fun key left looks =>
      agree.same key (interfaces name good path member key left looks)
  lock := (lock.parallel_provide agree).result

/-- Taking the lock of the log changes nothing, or its directory is there whether it is taken or
not. -/
theorem Unnoticed.cases (unnoticed : Unnoticed settings tree) :
    withLogLock settings tree = tree ∨
      (FileAction.ensurePath settings.lockDirectory).run tree =
          (.ok (), withLockDirectory settings tree) ∧
        (FileAction.ensurePath settings.lockDirectory).run (withLogLock settings tree) =
          (.ok (), withLogLock settings tree) := by
  rcases made : (FileAction.ensurePath settings.lockDirectory).run tree with ⟨cause | _, middle⟩
  · have stays : middle = tree := by
      rcases unnoticed.whole with ⟨_, succeeds⟩ | same
      · rw [made] at succeeds
        cases succeeds
      · rw [withLockDirectory, made] at same
        exact same
    left
    rw [withLogLock, FileLock.provide, run_bind_of_error made, stays]
  · have there : FileAction.HasDirectory (withLockDirectory settings tree) settings.lockDirectory :=
      FileAction.hasDirectory_of_ensurePath ⟨(), congrArg Prod.fst made⟩
    refine .inr ⟨?_, FileAction.run_ensurePath_of_hasDirectory
      (there.grown (steady_withLogLock settings tree).grows)⟩
    rw [withLockDirectory, made]

/-- Where the lock of the log is not noticed, the lock of the commands is taken as if it was not
there. -/
theorem Unnoticed.lock_eq (unnoticed : Unnoticed settings tree) :
    ((FileLock.provide settings.lockDirectory Command.lockName).run
      (withLogLock settings tree)).1 =
    ((FileLock.provide settings.lockDirectory Command.lockName).run tree).1 := by
  rcases unnoticed.cases with same | ⟨made, still⟩
  · rw [same]
  · have found := find_congr (steady_withLogLock settings tree).home unnoticed.lock
    rw [FileLock.provide, run_bind_of_ok still, run_bind_of_ok made, FileAction.run_createFile,
      FileAction.run_createFile, found]
    rcases (withLockDirectory settings tree).find
      (Path.join settings.lockDirectory Command.lockName) .newFile with cause | ⟨key, _ | node⟩
    · rfl
    · rfl
    · cases node <;> rfl

/-- Then commands see the same. -/
theorem Unnoticed.sameView (unnoticed : Unnoticed settings tree) :
    SameView settings tree (withLogLock settings tree) where
  target name := Target.resolve_congr fun good path member =>
    find_congr (FileAction.extends_provide settings.lockDirectory "op_log" tree).home
      (unnoticed.interfaces name good path member)
  lock := unnoticed.lock_eq

section Apart

variable (apart : Apart settings directory (withLockDirectory settings tree))

include apart

theorem Apart.looks_outside {name : String} (good : Target.IsInterface name) {path : String}
    (member : path ∈ Target.interfacePaths settings.systemRoot name) {key : Key}
    {left : List String} (looks : tree.LooksAlong path .name key left) : ¬ directory <+: key :=
  apart.interfaces name good path member key left
    (looks.extended (extends_withLockDirectory settings tree))

theorem Apart.lockApart {name : String} (member : name ∈ ["op_log", Command.lockName]) :
    FileAction.Apart (directory <+: ·) settings.lockDirectory name tree :=
  ⟨apart.locks, apart.lock name member⟩

/-- The lock of the commands is apart from the log once that of the log is taken. -/
theorem Apart.lockApart_withLogLock (unnoticed : Unnoticed settings tree) :
    FileAction.Apart (directory <+: ·) settings.lockDirectory Command.lockName
      (withLogLock settings tree) := by
  have steady : Steady (withLockDirectory settings tree)
      (withLockDirectory settings (withLogLock settings tree)) := by
    rcases unnoticed.cases with same | ⟨_, still⟩
    · rw [same]
      exact .refl _
    · have here : withLockDirectory settings (withLogLock settings tree) =
          withLogLock settings tree := congrArg Prod.snd still
      rw [here]
      exact steady_withLogLock settings tree
  exact ⟨fun path member => (apart.locks path member).steady steady,
    (apart.lock _ (List.mem_cons_of_mem _ List.mem_cons_self)).steady steady⟩

/-- Whatever is in the directory of the log, commands see the same once the log is open. -/
theorem Apart.sameView_start {host : Host}
    (agree : AgreeOutside (directory <+: ·) tree (withLogDirectory settings host.files))
    (confined : Confined settings directory (withLogDirectory settings host.files))
    (unnoticed : Announced settings host.files → Unnoticed settings tree) :
    SameView settings tree ((start settings).run host).2.files := by
  have logLock := apart.lockApart List.mem_cons_self
  have opens := confined.opens_start (logLock.agreeing agree)
  by_cases announced : Announced settings host.files
  · -- A lock was taken to say that the log was moved aside, and the trees agree from there on.
    have unnoticed := unnoticed announced
    have locked := (logLock.parallel_provide agree).agree.trans (opens.loud announced)
    refine unnoticed.sameView.trans
      (sameView_of_agree (apart.lockApart_withLogLock unnoticed) ?_ locked)
    exact fun name good path member key left looks =>
      apart.interfaces name good path member key left
        (looks.steady (steady_withLogLock settings tree))
  · exact sameView_of_agree (apart.lockApart (List.mem_cons_of_mem _ List.mem_cons_self))
      (fun name good path member key left looks => apart.looks_outside good member looks)
      (agree.trans (opens.silent announced))

end Apart

end OperationLog

/-! ### Runs -/

namespace Tool

variable {tool : Tool} {channel : Channel τ} {first second : Session τ}

/-- Behind the opening of the log a run begins with a look at the clock, or a note that there is
no log. -/
theorem exists_opened (tool : Tool) (arguments : List String) (session : Session τ) :
    ∃ records readings, (tool.opened arguments session).host =
      { ((start tool.settings).run session.host).2 with log := records, readings } := by
  change ∃ _ _, (tool.openLog arguments session.host).2 = _
  rw [openLog]
  rcases ran : (start tool.settings).run session.host with ⟨cause | log, host⟩
  · rw [bind_of_result (congrArg Prod.fst ran), ran]
    exact ⟨_, _, rfl⟩
  · rw [bind_of_result (congrArg Prod.fst ran), ran]
    exact ⟨_, _, rfl⟩

theorem files_opened (tool : Tool) (arguments : List String) (session : Session τ) :
    (tool.opened arguments session).host.files =
      ((start tool.settings).run session.host).2.files := by
  obtain ⟨_, _, opened⟩ := exists_opened tool arguments session
  rw [opened]

theorem unlockable_opened (tool : Tool) (arguments : List String) (session : Session τ) :
    (tool.opened arguments session).host.unlockable = session.host.unlockable := by
  obtain ⟨_, _, opened⟩ := exists_opened tool arguments session
  rw [opened]
  exact unlockable_start tool.settings session.host

/-- Opening the log makes no difference to a session but to its host. -/
theorem alike_opened (alike : first.Alike second) (tool : Tool) (arguments : List String) :
    first.Alike (tool.opened arguments second) :=
  ⟨alike.output, alike.peer⟩

/-- Whatever is in the directory of the log, a run over a remote channel comes to the same: it
returns the same, writes the same and requests the same. The system locks the same files, the files
agree outside, the paths of the log lead into its directory and the others past it, and where a log
is moved aside the lock that this takes is not noticed. -/
theorem run_ignores_log (remote : channel.Remote) (alike : first.Alike second)
    (locks : second.host.unlockable = first.host.unlockable)
    (agree : AgreeOutside (directory <+: ·) first.host.files second.host.files)
    (apart : OperationLog.Apart tool.settings directory
      (withLockDirectory tool.settings (withLogDirectory tool.settings first.host.files)))
    (confined : ∀ session ∈ [first, second], Confined tool.settings directory
      (withLogDirectory tool.settings session.host.files))
    (unnoticed : ∀ session ∈ [first, second], Announced tool.settings session.host.files →
      Unnoticed tool.settings (withLogDirectory tool.settings first.host.files))
    (arguments : List String) :
    (tool.run channel arguments second).1 = (tool.run channel arguments first).1 ∧
      (tool.run channel arguments second).2.output = (tool.run channel arguments first).2.output ∧
      tool.requests channel arguments second = tool.requests channel arguments first := by
  have adds := extends_withLockDirectory tool.settings
    (withLogDirectory tool.settings first.host.files)
  have prepared : AgreeOutside (directory <+: ·) (withLogDirectory tool.settings first.host.files)
      (withLogDirectory tool.settings second.host.files) :=
    FileAction.agree_ensurePath (List.prefix_refl directory) (apart.own.earlier adds)
      (fun path member => (apart.above path member).earlier adds) agree
  have one := apart.sameView_start (.refl _) (confined first List.mem_cons_self)
    (unnoticed first List.mem_cons_self)
  have other := apart.sameView_start prepared
    (confined second (List.mem_cons_of_mem _ List.mem_cons_self))
    (unnoticed second (List.mem_cons_of_mem _ List.mem_cons_self))
  have same := one.symm.trans other
  rw [← files_opened tool arguments first, ← files_opened tool arguments second] at same
  have locks : (tool.opened arguments second).host.unlockable =
      (tool.opened arguments first).host.unlockable := by
    rw [unlockable_opened, unlockable_opened, locks]
  have runs := same.parallel_run remote alike locks
  -- The requests are those that the same run leaves in a record beside the peer.
  have kept : (first.keep []).Alike (second.keep []) :=
    ⟨alike.output, Prod.ext alike.peer rfl⟩
  have records := SameView.parallel_run remote.recording kept locks same
  exact ⟨runs.result, runs.agree.output, congrArg Prod.snd records.agree.peer⟩

/-! ### Hosts with a log that is too large -/

/-- The files with a log that is too large. -/
def withLargeLog (files : FileTree) : FileTree :=
  files.insert ["logs", "operations.log"] (.file mode (List.replicate (maxBytes + 1) 0))

/-- Such a log is moved aside if it can be. -/
theorem announced_withLargeLog
    (free : files.find (filePath bareTool.settings) .newFile =
      .ok ⟨["logs", "operations.log"], none⟩)
    (there : (withLargeLog files).isDirectory "logs" = true)
    (renewed : ((renew bareTool.settings).run (withLargeLog files)).1 = .ok ()) :
    Announced bareTool.settings (withLargeLog files) := by
  have stays := FileAction.run_ensurePath_of_hasDirectory (.inr there)
  have here : withLogDirectory bareTool.settings (withLargeLog files) = withLargeLog files :=
    congrArg Prod.snd stays
  have size := (size_of_find (FileAction.find_insert free mode (List.replicate (maxBytes + 1) 0))).1
  rw [List.length_replicate] at size
  rw [Announced, here]
  exact ⟨⟨(), congrArg Prod.fst stays⟩, ⟨maxBytes + 1, size, Nat.lt_succ_self maxBytes⟩, renewed⟩

/-- A session on a host with these files, at whose other end the hash algorithm is told. -/
def hashSession (files : FileTree) : Session (ScriptedReplies Query) :=
  ⟨{ bareHost with files }, .unlimited, ⟨[.ok ⟨0, 0, [0x101, 2]⟩], []⟩⟩

/-- The command line that asks for the hash algorithm. -/
def hashArguments : List String := ["hikptool", "nic_rss", "-i", "0000:bd:00.0", "-g", "algo"]

/-- The log is confined where the names that its paths look up are, as far as they are listed. -/
theorem confined_of_looked
    (way : ∀ entry ∈ files.lookedAlong (filePath settings) .name,
      ¬ directory <+: entry.1 ∨ entry.1 = directory ∨ entry.2 = [])
    (name : ∀ key ∈ (files.find (filePath settings) .name).toOption.map Place.key,
      key = directory ++ ["operations.log"])
    (backup : ∀ key ∈ (files.find (backupPath settings) .name).toOption.map Place.key,
      key = directory ++ ["operations.log.old"])
    (log : ∀ key ∈ (files.find (filePath settings) .newFile).toOption.map Place.key,
      directory <+: key) : Confined settings directory files where
  way := forall_looksAlong way
  name place found := name place.key (by rw [found]; rfl)
  backup place found := backup place.key (by rw [found]; rfl)
  log place found := log place.key (by rw [found]; rfl)

/-- A path that is joined to another begins as that does. -/
theorem prefix_join {front : List Char} {base part : String} (named : front ≠ [])
    (begins : front <+: base.toList) (relative : Path.isAbsolute part = false) :
    front <+: (Path.join base part).toList := by
  have nonempty : base.isEmpty = false := by
    refine eq_false_of_ne_true fun empty => named ?_
    rw [String.isEmpty_iff.mp empty] at begins
    exact List.prefix_nil.mp begins
  rw [Path.join, relative, nonempty]
  cases Path.namesDirectory base with
  | true =>
    rw [if_neg (by decide), if_pos rfl, String.toList_append]
    exact begins.trans (List.prefix_append _ _)
  | false =>
    rw [if_neg (by decide), if_neg (by decide), String.toList_append, String.toList_append,
      List.append_assoc]
    exact begins.trans (List.prefix_append _ _)

/-- The paths of the interfaces begin with the system root. -/
theorem prefix_interfacePaths {name path : String} (good : Target.IsInterface name)
    (member : path ∈ Target.interfacePaths "sys" name) : "sys/".toList <+: path.toList := by
  have relative : Path.isAbsolute name = false := by
    refine eq_false_of_ne_true fun absolute => ?_
    have slash : '/' ∈ name.toList := List.mem_of_head? (eq_of_beq absolute)
    have plain := (Bool.or_eq_false_iff.mp good.2).2
    exact absurd (List.contains_iff_mem.mpr slash) (ne_true_of_eq_false plain)
  have root : "sys/".toList <+: (Path.join "sys" "class/net").toList := by decide
  have device : "sys/".toList <+:
      (Path.join (Path.join (Path.join "sys" "class/net") name) "device").toList :=
    prefix_join (by decide) (prefix_join (by decide) root relative) (by decide)
  simp only [Target.interfacePaths, List.mem_cons, List.not_mem_nil, or_false] at member
  rcases member with rfl | rfl
  · exact device
  · exact prefix_join (by decide) device (by decide)

/-- Where there is no system root, they end there. -/
theorem eq_of_looks_interface (home : files.workingDirectory = [])
    (missing : files.lookup ["sys"] = none) {name path : String} (good : Target.IsInterface name)
    (member : path ∈ Target.interfacePaths "sys" name) {key : Key} {left : List String}
    (looks : files.LooksAlong path .name key left) : key = ["sys"] := by
  obtain ⟨rest, spelled⟩ := prefix_interfacePaths good member
  have start : files.start path = [] := by
    rw [FileTree.start, home, ite_self]
  have steps : ∃ others, Purpose.name.steps path = "sys" :: others := by
    change ∃ others, Path.steps path = "sys" :: others
    rw [Path.steps, Path.components, ← spelled]
    exact ⟨_, rfl⟩
  obtain ⟨others, steps⟩ := steps
  have looks := looks.2
  rw [start, steps] at looks
  exact looks.eq_of_free ⟨by decide, by decide, by decide⟩ missing

theorem interfaces_outside (home : files.workingDirectory = [])
    (missing : files.lookup ["sys"] = none) (name : String) (good : Target.IsInterface name) :
    ∀ path ∈ Target.interfacePaths "sys" name, ∀ key left,
      files.LooksAlong path .name key left → ¬ ["logs"] <+: key := by
  intro path member key left looks
  obtain rfl := eq_of_looks_interface home missing good member looks
  decide

/-- A host without files and one with a log that is too large. -/
theorem run_ignores_log_large :
    let first := hashSession .empty
    let second := hashSession (withLargeLog (FileTree.empty.insert ["logs"] .directory))
    let channel : Channel (ScriptedReplies Query) := .direct ScriptedReplies.answer
    Announced bareTool.settings second.host.files ∧
      (bareTool.run channel hashArguments first).1 = some 0 ∧
      (bareTool.run channel hashArguments second).1 = (bareTool.run channel hashArguments first).1 ∧
      (bareTool.run channel hashArguments second).2.output =
        (bareTool.run channel hashArguments first).2.output ∧
      bareTool.requests channel hashArguments second =
        bareTool.requests channel hashArguments first := by
  intro first second channel
  have agree : AgreeOutside (["logs"] <+: ·) first.host.files second.host.files :=
    (AgreeOutside.insert_inside _ (List.prefix_refl _) _).trans
      (.insert_inside _ (List.prefix_append ["logs"] _) _)
  have announced : Announced bareTool.settings second.host.files :=
    announced_withLargeLog (by decide +kernel) (by decide +kernel) (by decide +kernel)
  let prepared := withLogDirectory bareTool.settings first.host.files
  let furnished := withLockDirectory bareTool.settings prepared
  have apart : OperationLog.Apart bareTool.settings ["logs"] furnished := by
    constructor
    · exact forall_looksAlong (by decide +kernel)
    · have listed : ∀ path ∈ Path.parents bareTool.settings.logDirectory,
          furnished.ListedOutside (["logs"] <+: ·) path := by decide +kernel
      exact fun path member => (listed path member).avoids
    · have listed : ∀ path ∈ FileAction.pathsOf bareTool.settings.lockDirectory,
          furnished.ListedOutside (["logs"] <+: ·) path := by decide +kernel
      exact fun path member => (listed path member).avoids
    · have listed : ∀ name ∈ ["op_log", Command.lockName], furnished.ListedOutside (["logs"] <+: ·)
          (Path.join bareTool.settings.lockDirectory name) := by decide +kernel
      exact fun name member => (listed name member).avoids
    · exact interfaces_outside (by decide +kernel) (by decide +kernel)
  have unnoticed : Unnoticed bareTool.settings prepared := by
    constructor
    · exact .inl ⟨(), by decide +kernel⟩
    · exact forall_looksAlong (by decide +kernel)
    · intro name good path member key left looks
      obtain rfl := eq_of_looks_interface (by decide +kernel) (by decide +kernel) good member looks
      decide +kernel
  have confined : ∀ session ∈ [first, second], Confined bareTool.settings ["logs"]
      (withLogDirectory bareTool.settings session.host.files) := by
    intro session member
    simp only [List.mem_cons, List.not_mem_nil, or_false] at member
    rcases member with rfl | rfl
    · exact confined_of_looked (by decide +kernel) (by decide +kernel) (by decide +kernel)
        (by decide +kernel)
    · exact confined_of_looked (by decide +kernel) (by decide +kernel) (by decide +kernel)
        (by decide +kernel)
  have alike : first.Alike second := ⟨rfl, rfl⟩
  have remote : channel.Remote := Channel.remote_direct ScriptedReplies.answer
  have same := run_ignores_log remote alike rfl agree apart confined (fun _ _ _ => unnoticed)
    hashArguments
  exact ⟨announced, by decide +kernel, same⟩

/-- The files with a lock of the commands that is a link through the lock of the log. -/
def linkedLock : FileTree :=
  ⟨[(["logs"], .directory), (["locks"], .directory),
    (["locks", "op_execute_lock"], .link "op_log/x")], []⟩

/-- That is their only link. -/
theorem lookup_linkedLock {key : Key} {target : String}
    (found : linkedLock.lookup key = some (.link target)) :
    key = ["locks", "op_execute_lock"] ∧ target = "op_log/x" := by
  have named : key ≠ [] := ne_nil_of_lookup found nofun
  obtain ⟨name, rest, rfl⟩ := List.exists_cons_of_ne_nil named
  obtain ⟨before, after, split, _⟩ := List.lookup_eq_some_iff.mp found
  have member : (name :: rest, Node.link target) ∈ linkedLock.nodes := by
    rw [split]
    exact List.mem_append_cons_self
  simp only [linkedLock, List.mem_cons, Prod.mk.injEq, reduceCtorEq, and_false, false_or,
    List.not_mem_nil, or_false, Node.link.injEq] at member
  exact member

/-- A log that is moved aside is noticed where the lock of the commands is a link through the lock
that this takes: the run fails in another way. -/
theorem run_notices_lock :
    let first := hashSession linkedLock
    let second := hashSession (withLargeLog linkedLock)
    let channel : Channel (ScriptedReplies Query) := .direct ScriptedReplies.answer
    AgreeOutside (["logs"] <+: ·) first.host.files second.host.files ∧
      (∀ session ∈ [first, second], ∀ key target,
        session.host.files.lookup key = some (.link target) →
          key = ["locks", "op_execute_lock"] ∧ target = "op_log/x") ∧
      (bareTool.run channel hashArguments first).1 = some (-2) ∧
      (bareTool.run channel hashArguments second).1 = some (-20) := by
  intro first second channel
  have agree : AgreeOutside (["logs"] <+: ·) first.host.files second.host.files :=
    .insert_inside _ (List.prefix_append ["logs"] _) _
  have links : ∀ session ∈ [first, second], ∀ key target,
      session.host.files.lookup key = some (.link target) →
        key = ["locks", "op_execute_lock"] ∧ target = "op_log/x" := by
    intro session member key target found
    simp only [List.mem_cons, List.not_mem_nil, or_false] at member
    rcases member with rfl | rfl
    · exact lookup_linkedLock found
    · by_cases log : key = ["logs", "operations.log"]
      · subst log
        cases (lookup_insert_self (List.cons_ne_nil _ _)).symm.trans found
      · exact lookup_linkedLock ((lookup_insert_of_ne log).symm.trans found)
  let prepared := withLogDirectory bareTool.settings second.host.files
  let locked := withLogLock bareTool.settings prepared
  have confined : Confined bareTool.settings ["logs"] prepared :=
    confined_of_looked (by decide +kernel) (by decide +kernel) (by decide +kernel)
      (by decide +kernel)
  have announced : Announced bareTool.settings second.host.files :=
    announced_withLargeLog (by decide +kernel) (by decide +kernel) (by decide +kernel)
  have logLock : FileAction.Apart (["logs"] <+: ·) bareTool.settings.lockDirectory "op_log"
      prepared := .of_listed (by decide +kernel) (by decide +kernel)
  have lock : FileAction.Apart (["logs"] <+: ·) bareTool.settings.lockDirectory Command.lockName
      locked := .of_listed (by decide +kernel) (by decide +kernel)
  have agrees : AgreeOutside (["logs"] <+: ·) locked
      ((start bareTool.settings).run second.host).2.files :=
    (confined.opens_start logLock).loud announced
  rw [← files_opened bareTool hashArguments second] at agrees
  have same := sameView_of_agree lock
    (interfaces_outside (by decide +kernel) (by decide +kernel)) agrees
  have remote : channel.Remote := Channel.remote_direct ScriptedReplies.answer
  have alike : (hashSession locked).Alike second := ⟨rfl, rfl⟩
  have locks : (bareTool.opened hashArguments second).host.unlockable =
      (hashSession locked).host.unlockable := unlockable_opened bareTool hashArguments second
  have executes := (same.parallel_execute remote (alike_opened alike bareTool hashArguments) locks
    hashArguments).result
  have fails : (bareTool.execute channel hashArguments (hashSession locked)).1 = some (-20) := by
    decide +kernel
  have runs := result_of_uninformed channel second
    (show bareTool.information? hashArguments = none by decide +kernel)
  exact ⟨agree, links, by decide +kernel, runs.trans (executes.trans fails)⟩

end Tool

end NicScope
