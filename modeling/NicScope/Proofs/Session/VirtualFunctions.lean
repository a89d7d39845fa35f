/-
This file says which runs refuse a target that is a virtual function. The flow director and the
packet filter tables look at the device number of the target before they ask anything, and a
virtual function makes them fail for that reason. Receive-side scaling does not look at it: it
asks a virtual function like any other. So virtual functions are refused in all runs but those
of that one command which come to open the channel.
-/

import NicScope.Proofs.Session.Admission
import NicScope.Proofs.Session.RequestTarget
import NicScope.Proofs.Session.Stages

namespace NicScope

open Dialogue

variable {τ : Type}

/-! ### What the commands do first -/

theorem checkedChoice_of_virtual {ν : Type} {target : Target} {chosen : Option ν}
    {check : ν → Except Error Unit} {complaint : String} (virtual : target.address.device ≠ 0) :
    checkedChoice target chosen check complaint = .error .virtualFunction := by
  unfold checkedChoice Target.requirePhysical
  rw [if_neg virtual]
  rfl

theorem Director.execute_of_virtual {context : Context}
    (virtual : context.target.address.device ≠ 0) :
    (execute context).run = .done (.error .virtualFunction) := by
  rw [execute, choice_eq, checkedChoice_of_virtual virtual]
  rfl

theorem Port.execute_of_virtual {context : Context}
    (virtual : context.target.address.device ≠ 0) :
    (execute context).run = .done (.error .virtualFunction) := by
  rw [execute, choice_eq, checkedChoice_of_virtual virtual]
  rfl

/-- A blob is fetched by asking for its first block to begin with. -/
theorem Fetch.blob_asks {η ρ : Type} [BlockHead η] [Layout ρ] (name : String) (header : Header)
    (capacity : Nat) {request : UInt8 → ρ}
    (small : ∀ index, Field.totalSize (Layout.fields (request index)) ≤ 128) :
    ∃ next, (blob η name header capacity request).run =
      .ask (queryOf header (request 0)) next := by
  rw [blob, readBlocks, reword, block_of_small small]
  exact ⟨_, rfl⟩

namespace Scaling

variable {context : Context}

theorem execute_of_unchosen (unchosen : context.feature = none) :
    (execute context).run = .done (.error (.usage "-g/--get param error!")) := by
  rw [execute, choice, unchosen]
  rfl

/-- A view that was chosen is asked for, whatever the target is. -/
theorem execute_of_chosen {feature : Feature View} (chosen : context.feature = some feature) :
    ∃ question next, (execute context).run = .ask question next := by
  have small : ∀ index,
      Field.totalSize (Layout.fields (blockRequest context.target.address index)) ≤ 128 :=
    fun _ => Nat.le_of_ble_eq_true rfl
  obtain ⟨next, asks⟩ := Fetch.blob_asks (η := PlainHead) commandName
    (.ofNic .rss feature.subcommand) maxScalingBytes small
  have blob : Fetch.blob PlainHead commandName (.ofNic .rss feature.subcommand) maxScalingBytes
      (blockRequest context.target.address) = ExceptT.mk (.ask _ next) := asks
  have begins : execute context = (do
      let tables ← Fetch.withCause (queryError feature) (fetchTables context feature)
      return Dump.framed ("################### RSS " ++ feature.name ++ " ###################")
        tables.view) := by
    rw [execute, choice, chosen]
    rfl
  rw [begins, fetchTables, blob]
  exact ⟨_, _, rfl⟩

end Scaling

/-! ### Visits -/

namespace Visit

variable {α : Type} {exchange : Exchange α} {contacts : List Contact}

/-- Where the channel does not open, nothing is requested. -/
theorem silent_of_unopened (visit : Visit exchange contacts)
    (unopened : .connected (.ok ()) ∉ contacts) (step : Query × Reply) :
    .requested step ∉ contacts := by
  cases visit with
  | refused cause => simp
  | held _ => exact absurd List.mem_cons_self unopened

/-- Where the channel opens, the first question of the dialogue is put. -/
theorem requests_of_opened (visit : Visit exchange contacts)
    (opened : .connected (.ok ()) ∈ contacts) {question : Query}
    {next : Reply → Dialogue Query Reply (Except Error α)}
    (asks : exchange.run = .ask question next) : ∃ step, .requested step ∈ contacts := by
  cases visit with
  | refused cause => simp at opened
  | held held =>
    rw [asks] at held
    cases held with
    | @ask _ _ answer => exact ⟨(question, answer), by simp⟩

end Visit

/-! ### Commands that only fail -/

namespace Command

variable {command : Command} {context : command.Context} {channel : Channel τ}
  {session : Session τ} {settings : Settings} {cause : Error}

/-- A command whose channel cannot be opened does nothing else. -/
theorem connected_of_unopened
    (unopened : (channel.connect (session.host, session.peer)).1 = .error cause) :
    command.connected channel context session =
      (.error (.deviceInit cause), (Session.onPeer channel.connect session).2) := by
  have unopened : (Session.onPeer channel.connect session).1 = .error cause := unopened
  rw [connected, bind_of_result unopened]
  rfl

/-- A command that asks nothing and fails does so once the channel is open; help may be shown
before that. -/
theorem connected_of_refusal (refusal : (command.execute context).run = .done (.error cause))
    (opens : (channel.connect (session.host, session.peer)).1 = .ok ()) :
    ∃ middle : Session τ,
      (command.connected channel context session).1 = .error (command.explain cause middle).1 := by
  have refuses : command.execute context = ExceptT.mk (.done (.error cause)) := refusal
  have opens : (Session.onPeer channel.connect session).1 = .ok () := opens
  rw [connected, bind_of_result opens]
  dsimp only
  have fails : ((command.perform channel context).run
      (Session.onPeer channel.connect session).2).1 = .error cause := by
    rw [perform, refuses]
    rfl
  rw [bind_of_result fails]
  exact ⟨_, rfl⟩

/-- An error of usage is never told as one of a virtual function. -/
theorem explain_usage_ne {text : String} :
    (command.explain (.usage text) session).1 ≠ .virtualFunction := by
  rw [explain]
  cases written : (Session.write command.help session).1 with
  | ok _ =>
    rw [bind_of_result written]
    exact nofun
  | error failure =>
    rw [bind_of_result written]
    exact nofun

end Command

/-! ### Runs -/

namespace Tool

variable {tool : Tool} {channel : Channel τ} {arguments : List String} {session : Session τ}

theorem visits_contacts :
    tool.Visits arguments (tool.opened arguments session).host
      (tool.contacts channel arguments session) := by
  obtain ⟨contacts, ran, visits⟩ := contacts_run tool channel arguments session []
  have same : tool.contacts channel arguments session = contacts := by
    rw [Tool.contacts, ran]
    rfl
  rw [same]
  exact visits

section Admitted

variable {command : Command} {context : command.Context} {cause : Error}
  (admits : tool.Admits arguments (tool.opened arguments session).host command context)

include admits

/-- What a run does to its channel is what its command does to it. -/
theorem contacts_of_admits :
    tool.contacts channel arguments session =
      (command.connected channel.watched context
        ((tool.entered (tool.opened arguments session)).after [])).2.peer.2 := by
  have runs := (run_of_dispatch channel.watched (session.after []) admits.informs_nothing).1
  have watched : tool.Admits arguments ((tool.opened arguments session).after []).host
    command context := admits
  obtain ⟨lock, commands⟩ := dispatch_of_admits channel.watched watched
  exact congrArg Prod.snd (runs.trans (congrArg (fun ended => ended.2.peer) commands))

/-- Where a run has its channel opened, the channel opens for whoever holds the lock. -/
theorem opens_of_contacts
    (opened : .connected (.ok ()) ∈ tool.contacts channel arguments session) :
    (channel.connect ((tool.entered (tool.opened arguments session)).host,
      (tool.entered (tool.opened arguments session)).peer)).1 = .ok () := by
  cases connects : (channel.connect ((tool.entered (tool.opened arguments session)).host,
      (tool.entered (tool.opened arguments session)).peer)).1 with
  | ok _ => rfl
  | error cause =>
    have only : tool.contacts channel arguments session = [.connected (.error cause)] := by
      have unopened : (channel.watched.connect
          (((tool.entered (tool.opened arguments session)).after []).host,
            ((tool.entered (tool.opened arguments session)).after []).peer)).1 = .error cause :=
        connects
      rw [contacts_of_admits admits, Command.connected_of_unopened unopened, ← connects]
      rfl
    rw [only] at opened
    simp at opened

/-- A command that asks nothing and fails does so in a run that has its channel opened. -/
theorem dispatch_of_refusal (refusal : (command.execute context).run = .done (.error cause))
    (opened : .connected (.ok ()) ∈ tool.contacts channel arguments session) :
    ∃ middle : Session τ,
      (tool.dispatch channel arguments (tool.opened arguments session)).1 =
        .error (command.explain cause middle).1 := by
  obtain ⟨lock, commands⟩ := dispatch_of_admits channel admits
  rw [commands]
  exact Command.connected_of_refusal refusal (opens_of_contacts admits opened)

end Admitted

variable (tool channel arguments session)

/-- Nothing is requested, and a run that has its channel opened fails because the target is a
virtual function. -/
def FailsForVirtual : Prop :=
  (∀ step, .requested step ∉ tool.contacts channel arguments session) ∧
    (.connected (.ok ()) ∈ tool.contacts channel arguments session →
      (tool.dispatch channel arguments (tool.opened arguments session)).1 =
          .error .virtualFunction ∧
        (tool.run channel arguments session).1 = some Error.virtualFunction.errno)

/-- If the command line chooses a virtual function as the target, it is refused. -/
def RejectsVirtual : Prop :=
  ∀ target, Interface.Chooses (tool.opened arguments session).host.files tool.settings.systemRoot
      .unset (arguments.drop 2) target →
    target.address.device ≠ 0 → tool.FailsForVirtual channel arguments session

variable {tool channel arguments session}

theorem failsForVirtual_of_refusal {command : Command} {context : command.Context}
    (admits : tool.Admits arguments (tool.opened arguments session).host command context)
    (refusal : (command.execute context).run = .done (.error .virtualFunction)) :
    tool.FailsForVirtual channel arguments session := by
  refine ⟨(visits_contacts.visit admits).requests_nothing fun _ _ held => ?_, fun opened => ?_⟩
  · rw [refusal] at held
    cases held with
    | done => rfl
  · obtain ⟨_, dispatched⟩ := dispatch_of_refusal admits refusal opened
    exact ⟨dispatched, (run_of_dispatch channel session admits.informs_nothing).2 _ dispatched⟩

/-- Receive-side scaling never fails for this reason once the channel is open: it asks for the view,
or complains that there is none. -/
theorem not_failsForVirtual_of_scaling {context : Scaling.Context}
    (admits : tool.Admits arguments (tool.opened arguments session).host scalingCommand
      context)
    (opened : .connected (.ok ()) ∈ tool.contacts channel arguments session) :
    ¬ tool.FailsForVirtual channel arguments session := by
  rintro ⟨silent, fails⟩
  cases chosen : context.feature with
  | none =>
    obtain ⟨_, dispatched⟩ :=
      dispatch_of_refusal admits (Scaling.execute_of_unchosen chosen) opened
    exact Command.explain_usage_ne (Except.error.inj (dispatched.symm.trans (fails opened).1))
  | some feature =>
    obtain ⟨_, _, asks⟩ := Scaling.execute_of_chosen chosen
    obtain ⟨step, requested⟩ :=
      (visits_contacts.visit admits).requests_of_opened opened asks
    exact silent step requested

variable (tool channel arguments session)

/-- A virtual function is refused as a target, unless the command is receive-side scaling and comes
to open the channel. -/
theorem rejectsVirtual_iff :
    tool.RejectsVirtual channel arguments session ↔
      ¬ ∃ context : Scaling.Context,
        tool.Admits arguments (tool.opened arguments session).host scalingCommand context ∧
          context.target.address.device ≠ 0 ∧
          .connected (.ok ()) ∈ tool.contacts channel arguments session := by
  constructor
  · rintro rejects ⟨context, admits, virtual, opened⟩
    exact not_failsForVirtual_of_scaling admits opened
      (rejects context.target (Scaling.chooses_of_parse admits.parsed) virtual)
  · intro aloof target chooses virtual
    rcases visits_contacts with ⟨command, context, admits, visit⟩ | ⟨_, none⟩
    · obtain ⟨_, _, does⟩ := Command.exists_does admits.listed context
      obtain rfl := (does.chooses admits.parsed).unique chooses
      cases does with
      | director context =>
        exact failsForVirtual_of_refusal admits (Director.execute_of_virtual virtual)
      | port context => exact failsForVirtual_of_refusal admits (Port.execute_of_virtual virtual)
      | scaling context =>
        have unopened : .connected (.ok ()) ∉ tool.contacts channel arguments session :=
          fun opened => aloof ⟨context, admits, virtual, opened⟩
        exact ⟨visit.silent_of_unopened unopened, fun opened => absurd opened unopened⟩
    · rw [FailsForVirtual, none]
      exact ⟨fun _ => List.not_mem_nil, fun opened => absurd opened List.not_mem_nil⟩

/-- A virtual function is asked for its hash algorithm, and the run succeeds. -/
theorem virtual_answered :
    let session : Session (ScriptedReplies Query) :=
      ⟨bareHost, .unlimited, ⟨[.ok ⟨0, 0, [0x101, 2]⟩], []⟩⟩
    let arguments := ["hikptool", "nic_rss", "-i", "0000:bd:01.0", "-g", "algo"]
    ¬ bareTool.RejectsVirtual (.direct ScriptedReplies.answer) arguments session ∧
      (bareTool.run (.direct ScriptedReplies.answer) arguments session).1 = some 0 := by
  intro session arguments
  refine ⟨fun rejects => ?_, by decide +kernel⟩
  have chooses : Interface.Chooses (bareTool.opened arguments session).host.files
      bareTool.settings.systemRoot .unset (arguments.drop 2) ⟨⟨0, 0xbd0100⟩, none⟩ :=
    @Interface.Chooses.named _ _ _ [] ["-g", "algo"] "-i" _ _ (by decide) (by decide)
      (by decide +kernel)
  have requested : (bareTool.contacts (.direct ScriptedReplies.answer) arguments session).any
      (fun | .requested _ => true | _ => false) = true := by decide +kernel
  obtain ⟨contact, made, isRequest⟩ := List.any_eq_true.mp requested
  cases contact with
  | requested step => exact (rejects _ chooses (by decide)).1 step made
  | connected | closed => cases isRequest

end Tool

end NicScope
