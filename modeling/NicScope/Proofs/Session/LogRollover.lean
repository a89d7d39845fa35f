/-
This file says what becomes of the log as it is opened, written to and removed. A log that has grown
too large is moved aside whole when it is opened, and a notice stands in the new one; in every other
step what the log holds stays in front of what is written. So as long as nobody removes the log, the
one moved aside and the log together hold every entry since the last rollover but one. Only the lock
must not lead to a log that has been removed: then taking the lock would make it.
-/

import NicScope.Proofs.Session.LogLines
import NicScope.Proofs.Session.LogOpening

namespace NicScope

open FileTree

namespace OperationLog

variable {settings : Settings} {directory : Key} {host : Host}

/-! ### Steps and runs -/

/-- What is done about the log: it is opened, told of a run that begins, told of its end, or removed
by somebody else. -/
inductive LogStep where
  | initialise
  | input (arguments : List String)
  | result (code : Int)
  | removal
  deriving DecidableEq

/-- A host with the log that was opened last on it. -/
structure Stage where
  host : Host
  log : Option OperationLog

/-- What a step that does not fail makes of a host: the log is opened and records are written, with
no failure noted, and the file is removed. -/
inductive Takes (settings : Settings) : Stage → LogStep → Stage → Prop
  | initialise {host final : Host} {before : Option OperationLog} {log : OperationLog}
      (opens : (start settings).run host = (.ok log, final)) (silent : final.log = host.log) :
      Takes settings ⟨host, before⟩ .initialise ⟨final, some log⟩
  | input {host : Host} {log : OperationLog} (arguments : List String) :
      Takes settings ⟨host, some log⟩ (.input arguments)
        ⟨(log.recordInput arguments host).2, some (log.recordInput arguments host).1⟩
  | result {host : Host} {log : OperationLog} (code : Int)
      (silent : (log.recordResult code host).2.log = host.log) :
      Takes settings ⟨host, some log⟩ (.result code) ⟨(log.recordResult code host).2, some log⟩
  | removal {host : Host} {log : Option OperationLog} {files : FileTree}
      (removes : (FileAction.remove (filePath settings)).run host.files = (.ok (), files)) :
      Takes settings ⟨host, log⟩ .removal ⟨{ host with files }, log⟩

/-- The command line of the latest run that began since the log was opened. -/
def latest (steps : List LogStep) : Option (List String) :=
  steps.foldl (fun latest step =>
    match step with
    | .initialise => none
    | .input arguments => some arguments
    | .result _ | .removal => latest) none

/-- The record of a run, with the command line if it is known. -/
def recordText (arguments : Option (List String)) (started ended : Moment) (code : Int) : String :=
  (arguments.map (inputText started)).getD "" ++ resultText started ended code

/-- What a step that does not fail comes to, once these steps have been taken. -/
def Effect (settings : Settings) (steps : List LogStep) (before after : Stage) : LogStep → Prop
  | .initialise => shelf settings after.host.files =
      opening (notice (before.host.clock (before.host.readings + 1)) (backupPath settings))
        (shelf settings before.host.files)
  | .input _ => after.host.files = before.host.files
  | .result code => ∃ log, before.log = some log ∧
      contents settings after.host.files = (contents settings before.host.files).map
        (· ++ encoded (recordText (latest steps) log.started
          (before.host.clock before.host.readings) code)) ∧
      Retains (backup settings before.host.files) (backup settings after.host.files)
  | .removal => shelf settings after.host.files = (none, backup settings before.host.files)

/-- What holds of a stage after some steps: the files are fit, and a log that has been opened is
housed and knows the command line. -/
structure Settled (settings : Settings) (steps : List LogStep) (stage : Stage) : Prop where
  fit : Fit settings stage.host.files
  housed : ∀ log, stage.log = some log → ∃ directory, Housed settings directory stage.host.files
  path : ∀ log, stage.log = some log → log.path = filePath settings
  locks : ∀ log, stage.log = some log → log.lockDirectory = settings.lockDirectory
  input : ∀ log, stage.log = some log →
    log.input = ((latest steps).map (inputText log.started)).getD ""

section Steps

variable {steps : List LogStep} {before after : Stage} {step : LogStep}

theorem latest_snoc (steps : List LogStep) (step : LogStep) :
    latest (steps ++ [step]) =
      match step with
      | .initialise => none
      | .input arguments => some arguments
      | .result _ | .removal => latest steps := by
  rw [latest, List.foldl_append]
  rfl

/-- A record of which no failure is noted is put behind what the log holds, if there is a log. -/
theorem Settled.records {log : OperationLog} (settled : Settled settings steps ⟨host, some log⟩)
    (code : Int) (silent : (log.recordResult code host).2.log = host.log)
    (elsewhere : LocksElsewhere settings host.files) :
    let after : Stage := ⟨(log.recordResult code host).2, some log⟩
    Settled settings (steps ++ [.result code]) after ∧
      Effect settings steps ⟨host, some log⟩ after (.result code) := by
  obtain ⟨directory, housed⟩ := settled.housed log rfl
  let later : Host := { host with readings := host.readings + 1 }
  have records : log.recordResult code host =
      log.write (log.input ++ resultText log.started (host.clock host.readings) code) later := rfl
  rw [records] at silent ⊢
  have written := Housed.write (show Housed settings directory later.files from housed)
    elsewhere (settled.path log rfl) (settled.locks log rfl) silent
  refine ⟨⟨written.housed.fit, fun _ _ => ⟨directory, written.housed⟩, ?_, ?_, ?_⟩, log, rfl,
    ?_, ?_⟩
  · exact settled.path
  · exact settled.locks
  · rw [latest_snoc]
    exact settled.input
  · rw [recordText, ← settled.input log rfl, written.housed.contents_eq]
    exact (housed.contents_eq ▸ written.log)
  · exact housed.backup_changes (fun _ => .inl rfl) written.housed written.backup

/-- A step that does not fail keeps the stage settled and comes to what it should. -/
theorem Settled.takes (settled : Settled settings steps before)
    (takes : Takes settings before step after)
    (elsewhere : ∀ code, step = .result code → LocksElsewhere settings before.host.files) :
    Settled settings (steps ++ [step]) after ∧ Effect settings steps before after step := by
  cases takes with
  | initialise opens silent =>
    obtain ⟨rfl, ⟨directory, housed⟩, shelved⟩ := settled.fit.shelf_of_opened opens silent
    refine ⟨⟨housed.fit, fun _ _ => ⟨directory, housed⟩, ?_, ?_, ?_⟩, shelved⟩
    all_goals
      rintro log ⟨⟩
    · rfl
    · rfl
    · rw [latest_snoc]
      rfl
  | @input host log arguments =>
    refine ⟨⟨settled.fit, fun _ _ => settled.housed log rfl, ?_, ?_, ?_⟩, rfl⟩
    all_goals
      rintro _ ⟨⟩
    · exact settled.path log rfl
    · exact settled.locks log rfl
    · rw [latest_snoc]
      rfl
  | @result host log code silent => exact settled.records code silent (elsewhere code rfl)
  | @removal host log files removes =>
    obtain ⟨directory, housed, rfl⟩ := settled.fit.removed removes
    have later := housed.erase_log
    refine ⟨⟨later.fit, fun _ _ => ⟨directory, later⟩, settled.path, settled.locks, ?_⟩,
      housed.shelf_eq later ?_ ?_⟩
    · rw [latest_snoc]
      exact settled.input
    · rw [contentAt, lookup_erase_self logKey_ne_nil]
    · exact contentAt_congr (lookup_erase_of_ne backupKey_ne_logKey)

/-- But for a removal and a rollover, what the log holds stays in front of what it holds then. -/
theorem Effect.keeps (effect : Effect settings steps before after step) {bytes : Bytes}
    (holds : contents settings before.host.files = some bytes) (stays : step ≠ .removal)
    (small : step = .initialise → bytes.length ≤ maxBytes) :
    ∃ more, contents settings after.host.files = some (bytes ++ more) := by
  cases step with
  | initialise =>
    have shelved : shelf settings after.host.files = _ := effect
    rw [shelf, shelf, holds, opening, if_neg (Nat.not_lt.mpr (small rfl))] at shelved
    have same : contents settings after.host.files = some bytes := congrArg Prod.fst shelved
    exact ⟨[], by rw [same, List.append_nil]⟩
  | input arguments =>
    have same : after.host.files = before.host.files := effect
    exact ⟨[], by rw [same, holds, List.append_nil]⟩
  | result code =>
    obtain ⟨log, _, written, _⟩ := effect
    rw [holds] at written
    exact ⟨_, written⟩
  | removal => exact absurd rfl stays

theorem Takes.opened (takes : Takes settings before step after) (later : step ≠ .initialise)
    (opened : after.log ≠ none) : before.log ≠ none := by
  cases takes with
  | initialise => exact absurd rfl later
  | input | result => exact nofun
  | removal => exact opened

end Steps

/-! ### Entries -/

/-- What is entered in a log. -/
inductive Entry where
  | notice (text : String)
  | record (text : String)

namespace Entry

def text : Entry → String
  | notice text | record text => text

def isNotice : Entry → Bool
  | notice _ => true
  | record _ => false

/-- Entries as files hold them. -/
def joined (entries : List Entry) : Bytes :=
  (entries.map fun entry => encoded entry.text).flatten

/-- How often the log has been moved aside. -/
def rollovers (entries : List Entry) : Nat :=
  entries.countP isNotice

/-- The entries from the last rollovers on, as many as are counted. -/
def since (count : Nat) : List Entry → List Entry
  | [] => []
  | entry :: rest => if count ≤ rollovers rest then since count rest else entry :: rest

variable {count : Nat} {entries : List Entry} {text : String}

theorem since_cons (count : Nat) (entry : Entry) (rest : List Entry) :
    since count (entry :: rest) =
      if count ≤ rollovers rest then since count rest else entry :: rest :=
  rfl

theorem joined_snoc (entries : List Entry) (entry : Entry) :
    joined (entries ++ [entry]) = joined entries ++ encoded entry.text := by
  rw [joined, List.map_append, List.flatten_append, List.map_singleton, List.flatten_singleton,
    joined]

theorem rollovers_snoc_record : rollovers (entries ++ [record text]) = rollovers entries := by
  rw [rollovers, List.countP_append]
  rfl

theorem rollovers_snoc_notice : rollovers (entries ++ [notice text]) = rollovers entries + 1 := by
  rw [rollovers, List.countP_append]
  rfl

theorem since_snoc_record (counted : 0 < count) :
    since count (entries ++ [record text]) = since count entries ++ [record text] := by
  induction entries with
  | nil =>
    rw [List.nil_append, since_cons,
      if_neg (show ¬ count ≤ rollovers [] from Nat.not_le.mpr counted)]
    rfl
  | cons entry rest inductionHypothesis =>
    rw [List.cons_append, since_cons, since_cons, rollovers_snoc_record, inductionHypothesis]
    split
    · rfl
    · rfl

theorem since_snoc_notice :
    since (count + 1) (entries ++ [notice text]) = since count entries ++ [notice text] := by
  induction entries with
  | nil => rfl
  | cons entry rest inductionHypothesis =>
    rw [List.cons_append, since_cons, since_cons, rollovers_snoc_notice, inductionHypothesis]
    by_cases more : count ≤ rollovers rest
    · rw [if_pos more, if_pos (Nat.succ_le_succ more)]
    · rw [if_neg more, if_neg fun less => more (Nat.le_of_succ_le_succ less)]
      rfl

theorem since_zero (entries : List Entry) : since 0 entries = [] := by
  induction entries with
  | nil => rfl
  | cons entry rest inductionHypothesis =>
    rw [since_cons, if_pos (Nat.zero_le _), inductionHypothesis]

end Entry

/-! ### Runs -/

/-- What a step enters in the log, once these steps have been taken. -/
def entered (settings : Settings) (steps : List LogStep) (before : Stage) : LogStep → List Entry
  | .initialise =>
    if ((contents settings before.host.files).getD []).length > maxBytes then
      [.notice (notice (before.host.clock (before.host.readings + 1)) (backupPath settings))]
    else []
  | .input _ => []
  | .result code =>
    match before.log with
    | some log => [.record (recordText (latest steps) log.started
        (before.host.clock before.host.readings) code)]
    | none => []
  | .removal => []

/-- Steps that do not fail, one after another from a host on which no log has been opened, with what
they enter. Where the log is missing and a record is to be written, the lock is elsewhere. -/
inductive Run (settings : Settings) (host : Host) : List LogStep → List Entry → Stage → Prop
  | nothing : Run settings host [] [] ⟨host, none⟩
  | more {steps : List LogStep} {entries : List Entry} {before after : Stage} {step : LogStep}
      (run : Run settings host steps entries before) (takes : Takes settings before step after)
      (elsewhere : ∀ code, step = .result code → LocksElsewhere settings before.host.files) :
      Run settings host (steps ++ [step]) (entries ++ entered settings steps before step) after

/-- What is left of what there was at first, after some rollovers. -/
def leftover (shelf : Option Bytes × Option Bytes) : Nat → Bytes
  | 0 => shelf.2.getD [] ++ shelf.1.getD []
  | 1 => shelf.1.getD []
  | _ + 2 => []

/-- The log holds what was entered since the last rollover, and the one moved aside and the log
together what was entered since the last but one, behind what is left of what there was at first. -/
structure Holds (first : Option Bytes × Option Bytes) (entries : List Entry)
    (shelf : Option Bytes × Option Bytes) : Prop where
  log : shelf.1.getD [] =
    leftover first (Entry.rollovers entries + 1) ++ Entry.joined (Entry.since 1 entries)
  both : shelf.2.getD [] ++ shelf.1.getD [] =
    leftover first (Entry.rollovers entries) ++ Entry.joined (Entry.since 2 entries)

namespace Holds

variable {first shelf later : Option Bytes × Option Bytes} {entries : List Entry} {text : String}

theorem start (first : Option Bytes × Option Bytes) : Holds first [] first where
  log := (List.append_nil _).symm
  both := (List.append_nil _).symm

variable (holds : Holds first entries shelf)

include holds

theorem same (log : later.1.getD [] = shelf.1.getD [])
    (backup : later.2.getD [] = shelf.2.getD []) :
    Holds first entries later where
  log := log.trans holds.log
  both := by rw [backup, log, holds.both]

/-- A record is put behind what the log holds. -/
theorem record (log : later.1.getD [] = shelf.1.getD [] ++ encoded text)
    (backup : later.2.getD [] = shelf.2.getD []) :
    Holds first (entries ++ [.record text]) later where
  log := by
    rw [log, holds.log, Entry.rollovers_snoc_record, Entry.since_snoc_record Nat.zero_lt_one,
      Entry.joined_snoc, List.append_assoc]
    rfl
  both := by
    rw [log, backup, ← List.append_assoc, holds.both, Entry.rollovers_snoc_record,
      Entry.since_snoc_record Nat.zero_lt_two, Entry.joined_snoc, List.append_assoc]
    rfl

/-- A notice stands alone in the log, and what that held is moved aside. -/
theorem notice (log : later.1.getD [] = encoded text) (backup : later.2.getD [] = shelf.1.getD []) :
    Holds first (entries ++ [.notice text]) later where
  log := by
    rw [log, Entry.rollovers_snoc_notice, Entry.since_snoc_notice, Entry.since_zero,
      Entry.joined_snoc]
    rfl
  both := by
    rw [log, backup, holds.log, Entry.rollovers_snoc_notice, Entry.since_snoc_notice,
      Entry.joined_snoc, List.append_assoc]
    rfl

/-- Opening a log enters a notice if it is too large, and else nothing. -/
theorem opening (text : String) :
    Holds first
      (entries ++ if (shelf.1.getD []).length > maxBytes then [.notice text] else [])
      (OperationLog.opening text shelf) := by
  obtain ⟨_ | bytes, backup⟩ := shelf
  all_goals
    dsimp only [Option.getD]
  · rw [if_neg (by decide), List.append_nil]
    exact holds.same rfl rfl
  · by_cases large : bytes.length > maxBytes
    · rw [OperationLog.opening, if_pos large, if_pos large]
      exact holds.notice rfl rfl
    · rw [OperationLog.opening, if_neg large, if_neg large, List.append_nil]
      exact holds

end Holds

namespace Run

variable {steps : List LogStep} {entries : List Entry} {last : Stage}

theorem settled (run : Run settings host steps entries last) (fit : Fit settings host.files) :
    Settled settings steps last := by
  induction run with
  | nothing => exact ⟨fit, nofun, nofun, nofun, nofun⟩
  | more _ takes elsewhere inductionHypothesis =>
    exact (inductionHypothesis.takes takes elsewhere).1

/-- As long as nobody removes the log it is there once it has been opened, and nothing is lost but
what two rollovers have moved aside. -/
theorem holds (run : Run settings host steps entries last) (fit : Fit settings host.files)
    (stays : LogStep.removal ∉ steps) :
    (last.log ≠ none → contents settings last.host.files ≠ none) ∧
      Holds (shelf settings host.files) entries (shelf settings last.host.files) := by
  induction run with
  | nothing => exact ⟨absurd rfl, .start _⟩
  | @more steps entries before after step run takes elsewhere inductionHypothesis =>
    rw [List.mem_append, List.mem_singleton, not_or] at stays
    obtain ⟨present, holds⟩ := inductionHypothesis stays.1
    have effect := ((run.settled fit).takes takes elsewhere).2
    cases step with
    | initialise =>
      have shelved : shelf settings after.host.files = _ := effect
      have log : contents settings after.host.files = _ := congrArg Prod.fst shelved
      rw [log, shelved]
      exact ⟨fun _ => opening_ne_none, holds.opening _⟩
    | input arguments =>
      have same : after.host.files = before.host.files := effect
      rw [entered, List.append_nil, same]
      exact ⟨fun opened => present (takes.opened nofun opened), holds⟩
    | result code =>
      obtain ⟨log, opened, written, retains⟩ := effect
      obtain ⟨bytes, there⟩ := Option.ne_none_iff_exists'.mp (present (opened ▸ nofun))
      rw [there] at written
      refine ⟨fun _ => written ▸ nofun, ?_⟩
      rw [entered, opened]
      refine holds.record ?_ retains.getD
      rw [shelf, shelf, written, there]
      rfl
    | removal => exact absurd rfl stays.2

end Run

/-- The notice ends a line, and so does whatever ends one in the path. -/
theorem lineEnds_notice (moment : Moment) (path : String) :
    lineEnds (notice moment path).toList = lineEnds path.toList + 1 := by
  let front := stamp moment ++ "The old operation log has been backed up to"
  have words : Unreturned "The old operation log has been backed up to" := by decide
  have clear : Unreturned front := unreturned_append.mpr ⟨unreturned_stamp moment, words⟩
  have split : "The old operation log has been backed up to ".toList =
      "The old operation log has been backed up to".toList ++ [' '] := by decide
  have ends : recordEnd.toList = ['\r', '\n'] := by decide
  have spelled : (notice moment path).toList =
      front.toList ++ ' ' :: (path.toList ++ '\r' :: '\n' :: []) := by
    simp only [notice, front, String.toList_append, split, ends, List.append_assoc,
      List.cons_append, List.nil_append]
  rw [spelled, lineEnds_between (by decide) (by decide), lineEnds_of_not_mem clear,
    lineEnds_append_end, Nat.zero_add]
  rfl

/-- Whatever is done about a log in its directory, a step that does not fail comes to what it
should: what the log holds stays in front, unless the log is too large when it is opened. Then all
of it is moved aside, and the log holds one notice. A record is put at the end, with the command
line of the latest run, or nothing is written if there is no log. So in a run without removals the
one moved aside and the log together hold each entry since the last rollover but one, once and in
order. -/
theorem entries_survive_rollover {steps : List LogStep} {entries : List Entry} {last : Stage}
    (fit : Fit settings host.files) (run : Run settings host steps entries last) :
    (∀ step after, Takes settings last step after →
      (∀ code, step = .result code → LocksElsewhere settings last.host.files) →
      Effect settings steps last after step ∧
        ∀ bytes, contents settings last.host.files = some bytes → step ≠ .removal →
          (step = .initialise → bytes.length ≤ maxBytes) →
            ∃ more, contents settings after.host.files = some (bytes ++ more)) ∧
      (∀ moment, lineEnds (notice moment (backupPath settings)).toList =
        lineEnds (backupPath settings).toList + 1) ∧
      (LogStep.removal ∉ steps →
        (backup settings last.host.files).getD [] ++ (contents settings last.host.files).getD [] =
          leftover (shelf settings host.files) (Entry.rollovers entries) ++
            Entry.joined (Entry.since 2 entries)) := by
  refine ⟨fun step after takes elsewhere => ?_, fun moment => lineEnds_notice moment _,
    fun stays => (run.holds fit stays).2.both⟩
  have effect := ((run.settled fit).takes takes elsewhere).2
  exact ⟨effect, fun _ => effect.keeps⟩

/-! ### On a host with a log that is too large -/

/-- Opening a log that is too large is a step that does not fail, if the log can be moved aside and
nothing is noted. -/
theorem takes_of_large (housed : Housed settings directory host.files) {bytes : Bytes}
    (holds : host.files.contentAt (logKey directory) = some bytes) (large : bytes.length > maxBytes)
    (renews : ((renew settings).run host.files).1 = .ok ()) {before : Option OperationLog}
    (silent : (announced settings host ((renew settings).run host.files).2).log = host.log) :
    Takes settings ⟨host, before⟩ .initialise
      ⟨announced settings host ((renew settings).run host.files).2,
        some (opened settings host)⟩ := by
  obtain ⟨old, found⟩ := housed.find_of_holds holds .newFile
  have starts := run_start_of_large (FileAction.run_ensurePath_of_hasDirectory housed.there) found
    large
  rcases ran : (renew settings).run host.files with ⟨_, after⟩
  rw [ran] at renews starts silent
  obtain rfl := renews
  exact .initialise starts silent

/-- A log that is too large. -/
def largeLog : Bytes :=
  List.replicate (maxBytes + 1) 0

theorem large_largeLog : largeLog.length > maxBytes := by
  rw [largeLog, List.length_replicate]
  exact Nat.lt_succ_self maxBytes

/-- A host with nothing but such a log in its directory. -/
def largeHost : Host :=
  { Tool.bareHost with
    files := (FileTree.empty.insert ["logs"] .directory).insert ["logs", "operations.log"]
      (.file mode largeLog) }

theorem contentAt_largeHost : largeHost.files.contentAt (logKey ["logs"]) = some largeLog :=
  contentAt_of_lookup (lookup_insert_self (List.cons_ne_nil _ _))

theorem housed_largeHost : Housed Tool.bareTool.settings ["logs"] largeHost.files where
  rooted := rooted_of_nodes rfl (by decide +kernel)
  there := .inr (by decide +kernel)
  into := leads_of_walk (by decide +kernel)
  good := ⟨by decide +kernel, by decide +kernel, by decide +kernel⟩
  log := by
    obtain ⟨old, there⟩ := lookup_of_contentAt contentAt_largeHost
    rw [there]
    exact plain_file
  backup := by
    have free : largeHost.files.lookup (backupKey ["logs"]) = none := by decide +kernel
    rw [free]
    exact fun _ _ => nofun

theorem contents_largeHost :
    contents Tool.bareTool.settings largeHost.files = some largeLog :=
  housed_largeHost.contents_eq.trans contentAt_largeHost

/-- The host once the log has been moved aside. -/
def movedHost : Host :=
  announced Tool.bareTool.settings largeHost ((renew Tool.bareTool.settings).run largeHost.files).2

theorem takes_largeHost : Takes Tool.bareTool.settings ⟨largeHost, none⟩ .initialise
    ⟨movedHost, some (opened Tool.bareTool.settings largeHost)⟩ :=
  takes_of_large housed_largeHost contentAt_largeHost large_largeLog (by decide +kernel)
    (by decide +kernel)

theorem entered_largeHost : entered Tool.bareTool.settings [] ⟨largeHost, none⟩ .initialise =
    [.notice (notice (largeHost.clock (largeHost.readings + 1))
      (backupPath Tool.bareTool.settings))] := by
  rw [entered, contents_largeHost]
  exact if_pos large_largeLog

/-- The log and the host when a run has begun there. -/
def begun : OperationLog × Host :=
  (opened Tool.bareTool.settings largeHost).recordInput ["hikptool", "nic_fd"] movedHost

theorem locksElsewhere_begun : LocksElsewhere Tool.bareTool.settings begun.2.files :=
  locksElsewhere_of_apart ["locks", "op_log"] ["logs", "operations.log"]
    (by decide +kernel) (by decide +kernel) (by decide)

/-- The log is moved aside when it is opened, and then a run that begins and ends is recorded: what
the log held, the notice and the record are all there. -/
theorem entries_survive_rollover_large :
    ∃ notice record last, Run Tool.bareTool.settings largeHost
        [.initialise, .input ["hikptool", "nic_fd"], .result 0]
        [.notice notice, .record record] last ∧
      (backup Tool.bareTool.settings last.host.files).getD [] ++
          (contents Tool.bareTool.settings last.host.files).getD [] =
        largeLog ++ Entry.joined [.notice notice, .record record] := by
  have ends : Takes Tool.bareTool.settings ⟨begun.2, some begun.1⟩ (.result 0)
      ⟨(begun.1.recordResult 0 begun.2).2, some begun.1⟩ := .result 0 (by decide +kernel)
  have first := Run.nothing.more takes_largeHost nofun
  rw [entered_largeHost] at first
  have second := first.more (.input ["hikptool", "nic_fd"]) nofun
  have run := second.more ends fun _ _ => locksElsewhere_begun
  have survive := (entries_survive_rollover housed_largeHost.fit run).2.2 (by decide)
  refine ⟨_, _, _, run, survive.trans ?_⟩
  have left : leftover (shelf Tool.bareTool.settings largeHost.files) 1 = largeLog := by
    rw [leftover, shelf, contents_largeHost]
    rfl
  exact congrArg (· ++ _) left

/-! ### On a host whose lock leads to the log -/

/-- Opening a log that is missing is a step that does not fail. -/
theorem takes_of_missing (housed : Housed settings directory host.files)
    (missing : host.files.contentAt (logKey directory) = none) {before : Option OperationLog} :
    Takes settings ⟨host, before⟩ .initialise
      ⟨((start settings).run host).2, some (opened settings host)⟩ := by
  have starts := run_start_of_missing (FileAction.run_ensurePath_of_hasDirectory housed.there)
    (housed.find_of_missing missing .newFile)
  rw [starts]
  exact .initialise starts rfl

theorem takes_of_removed {log : Option OperationLog}
    (removes : ((FileAction.remove (filePath settings)).run host.files).1 = .ok ()) :
    Takes settings ⟨host, log⟩ .removal
      ⟨{ host with files := ((FileAction.remove (filePath settings)).run host.files).2 }, log⟩ :=
  .removal (Prod.ext removes rfl)

/-- The log and its lock below it. -/
def linkedSettings : Settings :=
  { Tool.bareTool.settings with lockDirectory := "logs/locks" }

/-- A host without a log, on which the lock is a link to where the log would be. -/
def linkedHost : Host :=
  { Tool.bareHost with
    files := ⟨[(["logs"], .directory), (["logs", "locks"], .directory),
      (["logs", "locks", "op_log"], .link "../operations.log")], []⟩ }

theorem housed_linkedHost : Housed linkedSettings ["logs"] linkedHost.files where
  rooted := rooted_of_nodes rfl (by decide +kernel)
  there := .inr (by decide +kernel)
  into := leads_of_walk (by decide +kernel)
  good := ⟨by decide +kernel, by decide +kernel, by decide +kernel⟩
  log := by
    have free : linkedHost.files.lookup (logKey ["logs"]) = none := by decide +kernel
    exact free ▸ plain_none
  backup := by
    have free : linkedHost.files.lookup (backupKey ["logs"]) = none := by decide +kernel
    rw [free]
    exact fun _ _ => nofun

/-- The log and the host when a run has begun there. -/
def begunLinked : OperationLog × Host :=
  (opened linkedSettings linkedHost).recordInput ["hikptool", "nic_fd"]
    ((start linkedSettings).run linkedHost).2

/-- The host once the log has been removed. -/
def removedLinked : Host :=
  { begunLinked.2 with
    files := ((FileAction.remove (filePath linkedSettings)).run begunLinked.2.files).2 }

/-- A log that is missing when its lock is taken is made by that if the lock is a link to it, and
the record is written. -/
theorem linkedLock_remakes_log :
    ∃ entries written, Fit linkedSettings linkedHost.files ∧
      Run linkedSettings linkedHost [.initialise, .input ["hikptool", "nic_fd"], .removal] entries
        ⟨removedLinked, some begunLinked.1⟩ ∧
      Takes linkedSettings ⟨removedLinked, some begunLinked.1⟩ (.result 0) written ∧
      contents linkedSettings removedLinked.files = none ∧
      contents linkedSettings written.host.files ≠ none := by
  have missing : linkedHost.files.contentAt (logKey ["logs"]) = none := by decide +kernel
  have first := Run.nothing.more (takes_of_missing housed_linkedHost missing) nofun
  have second := first.more (.input ["hikptool", "nic_fd"]) nofun
  have third := second.more (takes_of_removed (by decide +kernel)) nofun
  exact ⟨_, _, housed_linkedHost.fit, third, .result 0 (by decide +kernel), by decide +kernel,
    by decide +kernel⟩

end OperationLog

end NicScope
