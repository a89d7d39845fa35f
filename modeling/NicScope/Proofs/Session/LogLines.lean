/-
This file says what runs enter in the operation log. Whatever a command line comes to, a run on
a log that can be used enters one record, with the command line and what it returned, unless it
only shows help or version or is broken off. The words of the command line stand in the record
as they are, so a line ends where one ends in a word: a run enters one line exactly if none
does.
-/

import Mathlib.Data.List.Forall2
import NicScope.Proofs.Session.LogSpared
import NicScope.Proofs.Text.LineEnds

namespace NicScope

open Numeral OperationLog

variable {τ : Type}

/-! ### The record of a run -/

theorem lineEnds_intercalate (words : List String) :
    lineEnds (" ".intercalate words).toList =
      (words.map fun word => lineEnds word.toList).sum := by
  induction words with
  | nil => rfl
  | cons first rest inductionHypothesis =>
    cases rest with
    | nil => rw [String.intercalate_singleton, List.map_singleton, List.sum_singleton]
    | cons second others =>
      have spelled : (" ".intercalate (first :: second :: others)).toList =
          first.toList ++ ' ' :: (" ".intercalate (second :: others)).toList := by
        rw [String.intercalate_cons_cons, String.toList_append, String.toList_append,
          List.append_assoc]
        rfl
      rw [spelled, lineEnds_between (by decide) (by decide), inductionHypothesis]
      rfl

/-- A text without carriage returns. -/
def Unreturned (text : String) : Prop :=
  '\r' ∉ text.toList

instance (text : String) : Decidable (Unreturned text) :=
  inferInstanceAs (Decidable ('\r' ∉ text.toList))

theorem unreturned_append {text more : String} :
    Unreturned (text ++ more) ↔ Unreturned text ∧ Unreturned more := by
  rw [Unreturned, String.toList_append, List.mem_append, not_or]
  rfl

theorem unreturned_decimal (number : Nat) : Unreturned (decimal number) := by
  rw [Unreturned, decimal, String.toList_ofList]
  exact not_mem_digits (by decide) 10 number

theorem unreturned_paddedDecimal (width number : Nat) :
    Unreturned (paddedDecimal width number) := by
  rw [Unreturned, paddedDecimal, String.toList_ofList]
  exact not_mem_paddedDigits (by decide) 10 width number

theorem unreturned_signedDecimal (number : Int) : Unreturned (signedDecimal number) := by
  have sign : Unreturned "-" := by decide
  rw [signedDecimal]
  split
  · exact unreturned_append.mpr ⟨sign, unreturned_decimal _⟩
  · exact unreturned_decimal _

namespace OperationLog

theorem unreturned_time (moment : Moment) : Unreturned moment.time := by
  have colon : Unreturned ":" := by decide
  simp only [Moment.time, unreturned_append, unreturned_paddedDecimal, colon, and_self]

theorem unreturned_seconds (micros : Nat) : Unreturned (Moment.seconds micros) := by
  have point : Unreturned "." := by decide
  simp only [Moment.seconds, unreturned_append, unreturned_paddedDecimal, unreturned_decimal,
    point, and_self]

/-- How a record ends. -/
def closing (result : Int) : String :=
  (if result = 0 then "[SUCCEED<" else "[FAILED<") ++ signedDecimal result ++ ">]."

/-- The record of a run, without the end of its line. -/
def recordLine (started ended : Moment) (arguments : List String) (result : Int) : String :=
  inputText started arguments ++ "[" ++ ended.time ++ "] [" ++
    Moment.seconds (ended.micros - started.micros) ++ "]" ++ closing result

theorem recordLine_eq (started ended : Moment) (arguments : List String) (result : Int) :
    inputText started arguments ++ resultText started ended result =
      recordLine started ended arguments result ++ recordEnd := by
  simp only [resultText, recordLine, closing, String.append_assoc]
  split <;> rfl

theorem unreturned_closing (result : Int) : Unreturned (closing result) := by
  have succeeded : Unreturned "[SUCCEED<" := by decide
  have failed : Unreturned "[FAILED<" := by decide
  have bracket : Unreturned ">]." := by decide
  rw [closing, unreturned_append, unreturned_append]
  refine ⟨⟨?_, unreturned_signedDecimal result⟩, bracket⟩
  split
  · exact succeeded
  · exact failed

theorem unreturned_stamp (moment : Moment) : Unreturned (stamp moment) := by
  have signs : Unreturned "[" ∧ Unreturned " " ∧ Unreturned "] [" ∧ Unreturned "]" ∧
      Unreturned "-" := by decide
  simp only [stamp, Moment.date, unreturned_append, unreturned_paddedDecimal, unreturned_time,
    unreturned_seconds, signs, and_self]

/-- The lines that end in the record of a run are those that end in the words of the command
line. -/
theorem lineEnds_recordLine (started ended : Moment) (arguments : List String) (result : Int) :
    lineEnds (recordLine started ended arguments result).toList =
      (arguments.map fun argument => lineEnds argument.toList).sum := by
  let front := (stamp started).toList
  let behind := ("[" ++ ended.time ++ "] [" ++ Moment.seconds (ended.micros - started.micros) ++
    "]" ++ closing result).toList
  have spelled : (recordLine started ended arguments result).toList =
      front ++ '[' :: ((" ".intercalate arguments).toList ++ ']' :: behind) := by
    simp only [recordLine, inputText, front, behind, String.toList_append, List.append_assoc]
    rfl
  have clear : '\r' ∉ behind := by
    have signs : Unreturned "[" ∧ Unreturned "] [" ∧ Unreturned "]" := by decide
    have all : Unreturned ("[" ++ ended.time ++ "] [" ++
        Moment.seconds (ended.micros - started.micros) ++ "]" ++ closing result) := by
      simp only [unreturned_append, unreturned_time, unreturned_seconds, unreturned_closing, signs,
        and_self]
    exact all
  rw [spelled, lineEnds_between (by decide) (by decide), lineEnds_between (by decide) (by decide),
    lineEnds_of_not_mem (unreturned_stamp started), lineEnds_of_not_mem clear,
    lineEnds_intercalate, Nat.zero_add, Nat.add_zero]

end OperationLog

/-! ### What a run leaves of the log -/

section Runs

variable {tool : Tool} {channel : Channel τ} {arguments : List String} {session : Session τ}
  {bytes : Bytes}

namespace Tool

/-- Taking the lock of the commands leaves the log as it is. -/
theorem kept_entered (kept : Kept tool.settings bytes session.host) :
    Kept tool.settings bytes (tool.entered session).host :=
  (kept.acquire Command.lockName).1

/-- Whatever a command line comes to, the log stays as it is until the run ends. -/
theorem kept_dispatch (kept : Kept tool.settings bytes session.host)
    (spares : tool.Spares channel arguments session) :
    Kept tool.settings bytes (tool.dispatch channel arguments session).2.host := by
  cases found : arguments[1]?.bind tool.lookup with
  | none =>
    rw [dispatch, found]
    exact kept
  | some command =>
    cases short : checkLength arguments tool.settings.maxCommandBytes with
    | error cause =>
      rw [dispatch, found]
      dsimp only
      rw [short]
      exact kept
    | ok _ =>
      have runs : (tool.dispatch channel arguments session).2.host =
          ((command.run tool.settings channel (arguments.drop 2)).run session).2.host := by
        rw [dispatch_of_found channel found short]
        rfl
      rcases parsed : command.parse tool.settings session.host.files (arguments.drop 2)
        with ⟨cause | _ | _, context⟩
      · rw [runs, Command.run_of_refused parsed]
        have explains : Keeps (Session.Has fun host _ => Kept tool.settings bytes host)
            (command.explain cause : StateM (Session τ) Error) := command.keeps_explain cause
        exact explains session kept
      · rcases locked : ((Command.acquireLock tool.settings).run session.host).1 with cause | lock
        · rw [runs, Command.run_of_parse parsed, Command.locked_of_refused locked]
          exact kept_entered kept
        · -- The one way on which the channel is opened: the command line is admitted.
          have lockable := Command.succeeds_acquireLock_iff.mp ⟨lock, locked⟩
          have admits := admits_of_parse found short parsed lockable
          obtain ⟨_, visits⟩ := dispatch_of_admits channel admits
          rw [visits]
          exact (spares command context admits bytes (kept_entered kept)).of_eq rfl rfl
      · rw [runs, Command.run_of_help parsed]
        exact kept

/-- A run begins with opening the log, which is a kept one then, and reads the clock for its
record. -/
theorem openLog_of_usable (arguments : List String) (usable : Usable tool.settings session.host)
    (small : (held tool.settings session.host.files).length ≤ maxBytes) :
    ∃ started, (tool.openLog arguments session.host).1 =
        some ⟨filePath tool.settings, tool.settings.lockDirectory, started,
          inputText started arguments⟩ ∧
      Kept tool.settings (held tool.settings session.host.files)
        (tool.opened arguments session).host := by
  obtain ⟨after, starts, kept⟩ := usable.run_start small
  have opens : tool.openLog arguments session.host =
      (some ⟨filePath tool.settings, tool.settings.lockDirectory, after.clock after.readings,
        inputText (after.clock after.readings) arguments⟩,
        { after with readings := after.readings + 1 }) := by
    rw [openLog, bind_of_result (congrArg Prod.fst starts), starts]
    rfl
  refine ⟨_, congrArg Prod.fst opens, ?_⟩
  change Kept _ _ (tool.openLog arguments session.host).2
  rw [opens]
  exact kept.of_eq rfl rfl

/-- A run that only shows help or version leaves what the log holds. -/
theorem kept_of_informed (channel : Channel τ) (session : Session τ)
    (usable : Usable tool.settings session.host)
    (small : (held tool.settings session.host.files).length ≤ maxBytes)
    (informed : tool.information? arguments ≠ none) :
    Kept tool.settings (held tool.settings session.host.files)
      (tool.run channel arguments session).2.host := by
  obtain ⟨text, informed⟩ := Option.ne_none_iff_exists'.mp informed
  obtain ⟨_, _, kept⟩ := openLog_of_usable arguments usable small
  rw [host_of_informed channel session informed]
  exact kept

/-- Every other run leaves what the log holds until it is closed, and then puts its record behind
that, or nothing if it was broken off. -/
theorem kept_of_uninformed (channel : Channel τ) (session : Session τ)
    (usable : Usable tool.settings session.host)
    (small : (held tool.settings session.host.files).length ≤ maxBytes)
    (uninformed : tool.information? arguments = none)
    (spares : tool.Spares channel arguments (tool.opened arguments session)) :
    ∃ started ended, Kept tool.settings
      (held tool.settings session.host.files ++
        match (tool.run channel arguments session).1 with
        | some result => encoded (recordLine started ended arguments result ++ recordEnd)
        | none => [])
      (tool.run channel arguments session).2.host := by
  obtain ⟨started, opens, kept⟩ := openLog_of_usable arguments usable small
  rw [run_of_uninformed channel session uninformed, opens]
  have kept := kept_dispatch kept spares
  obtain ⟨records, host⟩ := (execute_of_dispatch tool channel arguments
    (tool.opened arguments session)).2.1
  replace kept : Kept tool.settings _
      (tool.execute channel arguments (tool.opened arguments session)).2.host :=
    kept.of_eq (by rw [host]) (by rw [host])
  generalize tool.execute channel arguments (tool.opened arguments session) = executed at kept ⊢
  obtain ⟨_ | result, ended⟩ := executed
  · refine ⟨started, started, ?_⟩
    dsimp only
    rw [List.append_nil]
    exact kept
  · refine ⟨started, ended.host.clock ended.host.readings, ?_⟩
    dsimp only
    rw [← recordLine_eq]
    exact kept.recordResult ⟨filePath tool.settings, tool.settings.lockDirectory, started,
      inputText started arguments⟩ rfl rfl result

end Tool

end Runs

/-! ### Series of runs -/

/-- A call of the program: its command line, its output, and the channel with whoever is at the
other end of it. -/
structure Call where
  Peer : Type
  channel : Channel Peer
  peer : Peer
  output : Output
  arguments : List String

namespace Call

variable (call : Call) (tool : Tool) (host : Host)

/-- The session that the call begins in. -/
def session : Session call.Peer :=
  ⟨host, call.output, call.peer⟩

/-- What the call returns; `none` if it is broken off. -/
def result : Option Int :=
  (tool.run call.channel call.arguments (call.session host)).1

/-- The host that the call leaves. -/
def after : Host :=
  (tool.run call.channel call.arguments (call.session host)).2.host

end Call

namespace Tool

variable {tool : Tool} {host final : Host} {runs : List (Call × Option Int)} {bytes : Bytes}

/-- Calls of the program one after another, each with what it returned. The log is not too large
when a call begins and is spared by it, and between two calls the files stay as they are, and what
the system locks. -/
inductive Series (tool : Tool) : Host → List (Call × Option Int) → Host → Prop
  | none {host : Host} : Series tool host [] host
  | more {host between final : Host} {call : Call} {runs : List (Call × Option Int)}
      (small : (held tool.settings host.files).length ≤ maxBytes)
      (spares : tool.Spares call.channel call.arguments
        (tool.opened call.arguments (call.session host)))
      (files : between.files = (call.after tool host).files)
      (locks : between.unlockable = (call.after tool host).unlockable)
      (further : Series tool between runs final) :
      Series tool host ((call, call.result tool host) :: runs) final

/-- The calls that ask for more than help or version. -/
def asking (tool : Tool) (runs : List (Call × Option Int)) : List (Call × Option Int) :=
  runs.filter fun run => (tool.information? run.1.arguments).isNone

/-- The calls that are entered in the log: those of them that are not broken off. -/
def recorded (tool : Tool) (runs : List (Call × Option Int)) : List (Call × Int) :=
  (tool.asking runs).filterMap fun run => run.2.map (run.1, ·)

/-- The line is the record of a call. -/
def Enters (run : Call × Int) (line : String) : Prop :=
  ∃ started ended, line = recordLine started ended run.1.arguments run.2

/-- Lines as the log holds them. -/
def joined (lines : List String) : String :=
  String.join (lines.map (· ++ recordEnd))

theorem encoded_joined_nil : encoded (joined []) = [] := by
  rw [joined, List.map_nil, String.join_nil, encoded_eq]
  rfl

theorem joined_singleton (line : String) : joined [line] = line ++ recordEnd := by
  rw [joined, List.map_singleton, String.join_cons, String.join_nil, String.append_empty]

theorem encoded_joined_append (lines more : List String) :
    encoded (joined (lines ++ more)) = encoded (joined lines) ++ encoded (joined more) := by
  rw [joined, List.map_append, String.join_append, encoded_append]
  rfl

/-- What a call enters stands in front of what the later calls enter. -/
theorem enters_cons {run : Call × Option Int} {first others : List String}
    (entered : List.Forall₂ Enters (tool.recorded [run]) first)
    (followed : List.Forall₂ Enters (tool.recorded runs) others) :
    List.Forall₂ Enters (tool.recorded (run :: runs)) (first ++ others) := by
  rw [recorded, asking, ← List.singleton_append, List.filter_append, List.filterMap_append]
  exact List.rel_append entered followed

/-- A call on a usable log enters its record there, unless it only shows help or version or is
broken off. -/
theorem kept_after {call : Call} (usable : Usable tool.settings host)
    (small : (held tool.settings host.files).length ≤ maxBytes)
    (spares : tool.Spares call.channel call.arguments
      (tool.opened call.arguments (call.session host))) :
    ∃ lines, List.Forall₂ Enters (tool.recorded [(call, call.result tool host)]) lines ∧
      Kept tool.settings (held tool.settings host.files ++ encoded (joined lines))
        (call.after tool host) := by
  cases informed : tool.information? call.arguments with
  | none =>
    obtain ⟨started, ended, kept⟩ :=
      kept_of_uninformed call.channel (call.session host) usable small informed spares
    rw [recorded, asking, List.filter_cons_of_pos (by simp [informed])]
    cases returned : call.result tool host with
    | none =>
      rw [show (tool.run call.channel call.arguments (call.session host)).1 = none from returned]
        at kept
      refine ⟨[], .nil, ?_⟩
      rw [encoded_joined_nil]
      exact kept
    | some result =>
      rw [show (tool.run call.channel call.arguments (call.session host)).1 = some result
        from returned] at kept
      refine ⟨[_], .cons ⟨started, ended, rfl⟩ .nil, ?_⟩
      rw [joined_singleton]
      exact kept
  | some text =>
    have kept := kept_of_informed call.channel (call.session host) usable small
      (by rw [informed]; nofun)
    rw [recorded, asking, List.filter_cons_of_neg (by simp [informed])]
    refine ⟨[], .nil, ?_⟩
    rw [encoded_joined_nil, List.append_nil]
    exact kept

/-- A series of calls on a kept log enters one record for each of them that is to be entered. -/
theorem Series.kept (series : tool.Series host runs final)
    (kept : Kept tool.settings bytes host) :
    ∃ lines, List.Forall₂ Enters (tool.recorded runs) lines ∧
      Kept tool.settings (bytes ++ encoded (joined lines)) final := by
  -- What is kept is the log with all it holds so far, so `bytes` grows with the series.
  induction series generalizing bytes with
  | none =>
    refine ⟨[], .nil, ?_⟩
    rw [encoded_joined_nil, List.append_nil]
    exact kept
  | more small spares files locks further inductionHypothesis =>
    obtain rfl := kept.held_eq
    obtain ⟨first, entered, kept⟩ := kept_after (kept.usable small) small spares
    obtain ⟨others, followed, kept⟩ := inductionHypothesis (kept.of_eq files locks)
    refine ⟨first ++ others, enters_cons entered followed, ?_⟩
    rw [encoded_joined_append, ← List.append_assoc]
    exact kept

/-- A series of calls on a usable log enters one record for each of them that is to be entered. -/
theorem Series.held_eq (series : tool.Series host runs final)
    (usable : Usable tool.settings host) :
    ∃ lines, List.Forall₂ Enters (tool.recorded runs) lines ∧
      held tool.settings final.files =
        held tool.settings host.files ++ encoded (joined lines) := by
  cases series with
  | none =>
    refine ⟨[], .nil, ?_⟩
    rw [encoded_joined_nil, List.append_nil]
  | more small spares files locks further =>
    obtain ⟨first, entered, kept⟩ := kept_after usable small spares
    obtain ⟨others, followed, kept⟩ := further.kept (kept.of_eq files locks)
    refine ⟨first ++ others, enters_cons entered followed, ?_⟩
    rw [encoded_joined_append, ← List.append_assoc]
    exact kept.held_eq

/-! ### One line for each call -/

theorem toList_joined_cons (line : String) (lines : List String) :
    (joined (line :: lines)).toList = line.toList ++ '\r' :: '\n' :: (joined lines).toList := by
  rw [joined, List.map_cons, String.join_cons, String.toList_append, String.toList_append,
    List.append_assoc]
  rfl

/-- In a log one line ends for each of its lines, and those that end within them. -/
theorem lineEnds_joined (lines : List String) :
    lineEnds (joined lines).toList =
      lines.length + (lines.map fun line => lineEnds line.toList).sum := by
  induction lines with
  | nil => rw [joined, List.map_nil, String.join_nil]; rfl
  | cons line lines inductionHypothesis =>
    rw [toList_joined_cons, lineEnds_append_end, inductionHypothesis, List.length_cons,
      List.map_cons, List.sum_cons]
    omega

/-- Where no line ends within them, a log is split into its lines. -/
theorem records_joined {lines : List String} (whole : ∀ line ∈ lines, lineEnds line.toList = 0) :
    records (joined lines).toList = lines.map String.toList ++ [[]] := by
  induction lines with
  | nil => rw [joined, List.map_nil, String.join_nil]; rfl
  | cons line lines inductionHypothesis =>
    rw [List.forall_mem_cons] at whole
    rw [toList_joined_cons, records_append, records_of_lineEnds whole.1,
      inductionHypothesis whole.2]
    rfl

/-- The ends of lines in the words of a command line. -/
def argumentEnds (arguments : List String) : Nat :=
  (arguments.map fun argument => lineEnds argument.toList).sum

theorem argumentEnds_eq_zero_iff {arguments : List String} :
    argumentEnds arguments = 0 ↔
      ∀ argument ∈ arguments, ¬ recordEnd.toList <:+: argument.toList := by
  rw [argumentEnds, List.sum_eq_zero_iff_forall_eq_nat, List.forall_mem_map]
  exact forall₂_congr fun _ _ => lineEnds_eq_zero_iff

theorem Enters.lineEnds {run : Call × Int} {line : String} (entered : Enters run line) :
    lineEnds line.toList = argumentEnds run.1.arguments := by
  obtain ⟨started, ended, rfl⟩ := entered
  exact lineEnds_recordLine started ended run.1.arguments run.2

/-- A line ends behind a record, and wherever one ends in the command line. -/
theorem Enters.lineEnds_append {run : Call × Int} {line : String} (entered : Enters run line) :
    NicScope.lineEnds (line ++ recordEnd).toList = argumentEnds run.1.arguments + 1 := by
  have whole := lineEnds_joined [line]
  rw [joined_singleton, List.map_singleton, List.sum_singleton, List.length_singleton,
    entered.lineEnds, Nat.add_comm] at whole
  exact whole

theorem map_lineEnds {recorded : List (Call × Int)} {lines : List String}
    (entered : List.Forall₂ Enters recorded lines) :
    (lines.map fun line => lineEnds line.toList) =
      recorded.map fun run => argumentEnds run.1.arguments := by
  induction entered with
  | nil => rfl
  | cons first others inductionHypothesis =>
    rw [List.map_cons, List.map_cons, first.lineEnds, inductionHypothesis]

/-- Where all calls return that ask for more than help or version, they are all entered. -/
theorem asking_eq_map (returned : ∀ run ∈ tool.asking runs, run.2 ≠ none) :
    tool.asking runs = (tool.recorded runs).map fun run => (run.1, some run.2) := by
  rw [recorded]
  generalize tool.asking runs = asking at returned
  induction asking with
  | nil => rfl
  | cons run others inductionHypothesis =>
    obtain ⟨here, later⟩ := List.forall_mem_cons.mp returned
    obtain ⟨call, _ | result⟩ := run
    · exact absurd rfl here
    · exact congrArg (List.cons _) (inductionHypothesis later)

/-- The call has returned, and what it enters in the log ends with what it returned. -/
def Closes (run : Call × Option Int) (line : String) : Prop :=
  ∃ front result, run.2 = some result ∧ line = front ++ closing result

theorem Enters.closes {run : Call × Int} {line : String} (entered : Enters run line) :
    Closes (run.1, some run.2) line := by
  obtain ⟨started, ended, rfl⟩ := entered
  exact ⟨_, run.2, rfl, rfl⟩

/-- The calls have entered one line each in the log, in their order: split where lines end, what has
been added to the log are these lines and nothing more. -/
def OneLineEach (tool : Tool) (host : Host) (runs : List (Call × Option Int)) (final : Host) :
    Prop :=
  ∃ lines, held tool.settings final.files =
      held tool.settings host.files ++ encoded (joined lines) ∧
    List.Forall₂ Closes (tool.asking runs) lines ∧
    records (joined lines).toList = lines.map String.toList ++ [[]]

/-- Each of a series of calls on a usable log has entered one line exactly if it has returned and
no line ends in its command line. -/
theorem oneLineEach_iff (series : tool.Series host runs final)
    (usable : Usable tool.settings host) :
    tool.OneLineEach host runs final ↔ ∀ run ∈ tool.asking runs, run.2 ≠ none ∧
      ∀ argument ∈ run.1.arguments, ¬ recordEnd.toList <:+: argument.toList := by
  obtain ⟨lines, entered, holds⟩ := series.held_eq usable
  have ends := map_lineEnds entered
  constructor
  · rintro ⟨others, alike, closes, split⟩
    have returned : ∀ run ∈ tool.asking runs, run.2 ≠ none := by
      have each : List.Forall₂ (fun run line => run.2 ≠ none ∧ Closes run line)
          (tool.asking runs) others := by
        refine closes.imp fun run line closed => ⟨?_, closed⟩
        obtain ⟨_, result, returned, _⟩ := closed
        rw [returned]
        nofun
      exact ((List.forall₂_and_left _ _).mp each).1
    -- There are as many records as calls, so no line is left to end within one.
    have same : joined others = joined lines :=
      encoded_inj (List.append_cancel_left (alike.symm.trans holds))
    have count := congrArg List.length split
    have all := congrArg List.length (asking_eq_map returned)
    rw [List.length_map] at all
    rw [length_records, same, lineEnds_joined, ends, List.length_append, List.length_map,
      List.length_singleton, ← closes.length_eq, ← entered.length_eq, all] at count
    have none : ((tool.recorded runs).map fun run => argumentEnds run.1.arguments).sum = 0 := by
      omega
    rw [List.sum_eq_zero_iff_forall_eq_nat, List.forall_mem_map] at none
    refine fun run member => ⟨returned run member, ?_⟩
    rw [asking_eq_map returned] at member
    obtain ⟨listed, among, rfl⟩ := List.mem_map.mp member
    exact argumentEnds_eq_zero_iff.mp (none listed among)
  · intro clear
    have all := asking_eq_map fun run member => (clear run member).1
    have none : ∀ count ∈ lines.map (fun line => lineEnds line.toList), count = 0 := by
      rw [ends, List.forall_mem_map]
      intro run listed
      have member : (run.1, some run.2) ∈ tool.asking runs :=
        all ▸ List.mem_map_of_mem listed
      exact argumentEnds_eq_zero_iff.mpr (clear _ member).2
    refine ⟨lines, holds, ?_, records_joined fun line listed => none _ (List.mem_map_of_mem listed)⟩
    rw [all, List.forall₂_map_left_iff]
    exact entered.imp fun _ _ entered => entered.closes

/-- A series of calls on a usable log enters a record for each of them that asks for more than help
or version and is not broken off, with its command line and what it returned. A line ends behind the
record and wherever one ends in the command line; so each has entered one line exactly if it has
returned and none ends in its command line. -/
theorem log_of_series (series : tool.Series host runs final) (usable : Usable tool.settings host) :
    (∃ lines, List.Forall₂ (fun run line => Enters run line ∧
          lineEnds (line ++ recordEnd).toList = argumentEnds run.1.arguments + 1)
        (tool.recorded runs) lines ∧
      held tool.settings final.files =
        held tool.settings host.files ++ encoded (joined lines)) ∧
      (tool.OneLineEach host runs final ↔ ∀ run ∈ tool.asking runs, run.2 ≠ none ∧
        ∀ argument ∈ run.1.arguments, ¬ recordEnd.toList <:+: argument.toList) := by
  obtain ⟨lines, entered, holds⟩ := series.held_eq usable
  exact ⟨⟨lines, entered.imp fun _ _ entered => ⟨entered, entered.lineEnds_append⟩, holds⟩,
    oneLineEach_iff series usable⟩

/-! ### On a host without files -/

theorem usable_bareHost : Usable bareTool.settings bareHost where
  file := ⟨⟨(), by decide +kernel⟩, ⟨["logs", "operations.log"], none⟩, by decide +kernel, nofun⟩
  lock := by decide +kernel

/-- A call with the channel to the device. -/
def deviceCall (arguments : List String) : Call where
  Peer := Option OpenDevice
  channel := .device bareTool.settings
  peer := none
  output := .unlimited
  arguments

/-- A call that shows the version and one that names no command: the second enters its line. -/
theorem log_of_series_unknownCommand :
    let first := deviceCall ["hikptool", "--version"]
    let second := deviceCall ["hikptool", "nic_none"]
    let between := first.after bareTool bareHost
    let runs := [(first, first.result bareTool bareHost), (second, second.result bareTool between)]
    bareTool.Series bareHost runs (second.after bareTool between) ∧
      (bareTool.asking runs).map Prod.snd = [some (-22)] ∧
      bareTool.OneLineEach bareHost runs (second.after bareTool between) := by
  intro first second between runs
  have small : (held bareTool.settings between.files).length ≤ maxBytes := by decide +kernel
  have spares : bareTool.Spares first.channel first.arguments
      (bareTool.opened first.arguments (first.session bareHost)) :=
    spares_device rfl fun _ _ => .of_missing (by decide +kernel)
  have sparesToo : bareTool.Spares second.channel second.arguments
      (bareTool.opened second.arguments (second.session between)) :=
    spares_device rfl fun _ _ => .of_missing (by decide +kernel)
  have series : bareTool.Series bareHost runs (second.after bareTool between) :=
    .more (by decide +kernel) spares rfl rfl (.more small sparesToo rfl rfl .none)
  have clear : ∀ run ∈ bareTool.asking runs, run.2 ≠ none ∧ ∀ argument ∈ run.1.arguments,
      ¬ recordEnd.toList <:+: argument.toList := by decide +kernel
  exact ⟨series, by decide +kernel, (log_of_series series usable_bareHost).2.mpr clear⟩

/-- A call whose requests nobody answers. -/
def unansweredCall (arguments : List String) : Call where
  Peer := ScriptedReplies Query
  channel := .direct ScriptedReplies.answer
  peer := ⟨[], []⟩
  output := .unlimited
  arguments

/-- A line ends in a word of the command line: the call enters two lines, the second one forged. -/
theorem log_of_forgedLine :
    let call := unansweredCall ["hikptool", "nic_fd\r\n[forged]"]
    call.result bareTool bareHost = some (-22) ∧
      ¬ bareTool.OneLineEach bareHost [(call, call.result bareTool bareHost)]
        (call.after bareTool bareHost) := by
  intro call
  refine ⟨by decide +kernel, fun each => ?_⟩
  have series : bareTool.Series bareHost [(call, call.result bareTool bareHost)]
      (call.after bareTool bareHost) :=
    .more (by decide +kernel) (spares_direct _ _) rfl rfl .none
  have clear := (oneLineEach_iff series usable_bareHost).mp each
  have listed : (call, call.result bareTool bareHost) ∈
      bareTool.asking [(call, call.result bareTool bareHost)] :=
    List.mem_filter.mpr ⟨List.mem_singleton_self _, by decide +kernel⟩
  have word : "nic_fd\r\n[forged]" ∈ call.arguments := by decide +kernel
  exact (clear _ listed).2 _ word (by decide +kernel)

end Tool

end NicScope
