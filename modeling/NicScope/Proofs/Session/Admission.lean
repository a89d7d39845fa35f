/-
This file says which command lines reach the device. The channel is opened exactly if the command
line names a command that the chip supports, is not too long, has options that are read to their
end, and the lock of the commands can be taken; in every other case nothing at all is done to the
channel. And where the options that were read do not go together the channel may be opened, but
nothing is requested over it.
-/

import Mathlib.Algebra.Ring.Nat
import NicScope.Proofs.Command.UnfitChoices
import NicScope.Proofs.Session.Contacts
import NicScope.Proofs.Session.Requests
import NicScope.Transfer.Scripted

namespace NicScope

variable {τ : Type}

namespace Tool

/-! ### Commands by name -/

theorem eq_of_name_eq {command other : Command} (listed : command ∈ commands)
    (also : other ∈ commands) (same : command.name = other.name) : command = other := by
  simp only [commands, List.mem_cons, List.not_mem_nil, or_false] at listed also
  rcases listed with rfl | rfl | rfl <;> rcases also with rfl | rfl | rfl
  all_goals first | rfl | exact absurd same (by decide)

/-- The command that is found is the one of this name, if the chip supports it. -/
theorem lookup_eq_some_iff {tool : Tool} {wanted : String} {command : Command} :
    tool.lookup wanted = some command ↔
      command ∈ commands ∧ wanted = command.name ∧ tool.chip.supports command.name = true := by
  constructor
  · intro found
    have accepted := List.find?_some found
    rw [Bool.and_eq_true, beq_iff_eq] at accepted
    exact ⟨List.mem_of_find?_eq_some found, accepted.1.symm, accepted.2⟩
  · rintro ⟨listed, rfl, supported⟩
    cases found : tool.lookup command.name with
    | none =>
      have missed := List.find?_eq_none.mp found command listed
      rw [supported, beq_self_eq_true] at missed
      exact absurd rfl missed
    | some other =>
      have accepted := List.find?_some found
      rw [Bool.and_eq_true, beq_iff_eq] at accepted
      rw [eq_of_name_eq (List.mem_of_find?_eq_some found) listed accepted.1]

theorem checkLength_eq_ok_iff {arguments : List String} {most : Nat} :
    checkLength arguments most = .ok () ↔ (arguments.map String.utf8ByteSize).sum ≤ most := by
  have length : arguments.foldr (fun argument length => argument.utf8ByteSize + length) 0 =
      (arguments.map String.utf8ByteSize).sum := by
    rw [List.sum, List.foldr_map]
  rw [checkLength, length]
  split
  next long => exact iff_of_false nofun (Nat.not_le_of_lt long)
  next within => exact iff_of_true rfl (Nat.le_of_not_lt within)

/-! ### Admission -/

/-- A command line is admitted to run a command in a context, on this host. -/
structure Admits (tool : Tool) (arguments : List String) (host : Host) (command : Command)
    (context : command.Context) : Prop where
  listed : command ∈ commands
  named : arguments[1]? = some command.name
  supported : tool.chip.supports command.name = true
  short : (arguments.map String.utf8ByteSize).sum ≤ tool.settings.maxCommandBytes
  parsed : command.parse tool.settings host.files (arguments.drop 2) = (.ok .proceed, context)
  lockable : FileLock.Takable host tool.settings.lockDirectory Command.lockName

namespace Admits

variable {tool : Tool} {arguments : List String} {host : Host} {command : Command}
  {context : command.Context} (admits : tool.Admits arguments host command context)

include admits

theorem found : arguments[1]?.bind tool.lookup = some command := by
  rw [admits.named]
  exact lookup_eq_some_iff.mpr ⟨admits.listed, rfl, admits.supported⟩

/-- A command line that is admitted asks for no help and no version. -/
theorem informs_nothing : tool.information? arguments = none := by
  have named := admits.named
  match arguments, named with
  | [_, option], named =>
    obtain rfl : option = command.name := Option.some.inj named
    have listed := admits.listed
    simp only [commands, List.mem_cons, List.not_mem_nil, or_false] at listed
    rcases listed with rfl | rfl | rfl
    all_goals rfl
  | _ :: _ :: _ :: _, _ => rfl

end Admits

/-- The device is visited if the command line is admitted, and only then is anything done to the
channel. -/
def Visits (tool : Tool) (arguments : List String) (host : Host) (contacts : List Contact) :
    Prop :=
  (∃ command context, tool.Admits arguments host command context ∧
      Visit (command.execute context) contacts) ∨
    (∀ command context, ¬ tool.Admits arguments host command context) ∧ contacts = []

theorem Visits.visit {tool : Tool} {arguments : List String} {host : Host}
    {contacts : List Contact} (visits : tool.Visits arguments host contacts) {command : Command}
    {context : command.Context} (admits : tool.Admits arguments host command context) :
    Visit (command.execute context) contacts := by
  rcases visits with ⟨other, its, also, visit⟩ | ⟨nobody, _⟩
  · obtain rfl : other = command := Option.some.inj (also.found.symm.trans admits.found)
    obtain rfl : its = context := congrArg Prod.snd (also.parsed.symm.trans admits.parsed)
    exact visit
  · exact absurd admits (nobody command context)

/-! ### Runs -/

variable (tool : Tool) (channel : Channel τ) (arguments : List String)

theorem contacts_dispatch :
    Contacts (tool.dispatch channel arguments).run
      (tool.dispatch channel.watched arguments).run
      fun session contacts _ _ => tool.Visits arguments session.host contacts := by
  rw [dispatch, dispatch]
  split
  next unknown =>
    refine (Aloof.pure (Except.error Error.unknownCommand)).contacts.mono ?_
    rintro _ _ _ _ rfl
    refine .inr ⟨fun _ _ admits => ?_, rfl⟩
    cases unknown.symm.trans admits.found
  next command found =>
    obtain ⟨name, named, known⟩ := Option.bind_eq_some_iff.mp found
    obtain ⟨listed, rfl, supported⟩ := lookup_eq_some_iff.mp known
    split
    next cause overlong =>
      refine (Aloof.pure (Except.error cause)).contacts.mono ?_
      rintro _ _ _ _ rfl
      refine .inr ⟨fun _ _ admits => ?_, rfl⟩
      cases overlong.symm.trans (checkLength_eq_ok_iff.mpr admits.short)
    next short =>
      refine (contacts_command channel command tool.settings (arguments.drop 2)).mono ?_
      rintro _ _ _ _ (⟨context, parsed, lockable, visit⟩ | ⟨locked, rfl⟩)
      · exact .inl ⟨command, context,
          ⟨listed, named, supported, checkLength_eq_ok_iff.mp short, parsed, lockable⟩, visit⟩
      · refine .inr ⟨fun other context admits => ?_, rfl⟩
        obtain rfl : command = other := Option.some.inj (found.symm.trans admits.found)
        exact locked context admits.parsed admits.lockable

theorem contacts_execute :
    Contacts (tool.execute channel arguments) (tool.execute channel.watched arguments)
      fun session contacts _ _ => tool.Visits arguments session.host contacts := by
  refine (Recorded.bindTo (fun _ _ contacts _ _ => contacts = [])
    (contacts_dispatch tool channel arguments) fun result => ?_).mono ?_
  · exact (Aloof.conclude result).contacts
  · rintro _ _ _ _ ⟨_, _, _, _, rfl, visits, rfl⟩
    rw [List.append_nil]
    exact visits

theorem contacts_run :
    Contacts (tool.run channel arguments) (tool.run channel.watched arguments)
      fun session contacts _ _ =>
        tool.Visits arguments (tool.opened arguments session).host contacts := by
  refine (Recorded.bindTo
    (fun _ session contacts _ _ => tool.Visits arguments session.host contacts)
    (Aloof.onHost (tool.openLog arguments)).contacts.exactly fun log => ?_).mono ?_
  · cases informed : tool.information? arguments with
    | some text =>
      refine (Aloof.inform text).contacts.mono ?_
      rintro _ _ _ _ rfl
      refine .inr ⟨fun _ _ admits => ?_, rfl⟩
      cases informed.symm.trans admits.informs_nothing
    | none =>
      refine ((contacts_execute tool channel arguments).bind fun result =>
        ((Aloof.onHost (closeLog log result)).bind fun _ => .pure result).contacts).mono ?_
      rintro _ _ _ _ ⟨_, _, _, _, rfl, visits, rfl⟩
      rw [List.append_nil]
      exact visits
  · rintro session _ _ _ ⟨_, _, log, middle, rfl, ⟨rfl, opens⟩, visits⟩
    obtain rfl : middle = tool.opened arguments session := congrArg Prod.snd opens
    exact visits

variable (session : Session τ)

/-- Everything that a run does to the channel. -/
def contacts : List Contact :=
  (tool.run channel.watched arguments (session.after [])).2.peer.2

/-- Watching the channel changes nothing else about a run. The channel is opened exactly if the
command line is admitted; then the device is visited once, for the dialogue of the command, and
else nothing is done to the channel. Nothing is requested where the choices are unfit. -/
theorem connects_iff_admitted :
    tool.run channel.watched arguments (session.after []) =
        ((tool.run channel arguments session).1,
          (tool.run channel arguments session).2.after
            (tool.contacts channel arguments session)) ∧
      ((∃ result, .connected result ∈ tool.contacts channel arguments session) ↔
        ∃ command context,
          tool.Admits arguments (tool.opened arguments session).host command context) ∧
      (∀ command context,
        tool.Admits arguments (tool.opened arguments session).host command context →
          Visit (command.execute context) (tool.contacts channel arguments session)) ∧
      ((∀ command context,
        ¬ tool.Admits arguments (tool.opened arguments session).host command context) →
          tool.contacts channel arguments session = []) ∧
      ∀ command ∈ commands, arguments[1]? = some command.name → ∀ context,
        command.parse tool.settings (tool.opened arguments session).host.files
            (arguments.drop 2) = (.ok .proceed, context) →
          command.Unfit context → ∀ step,
            .requested step ∉ tool.contacts channel arguments session := by
  obtain ⟨contacts, ran, visits⟩ := contacts_run tool channel arguments session []
  obtain rfl : tool.contacts channel arguments session = contacts := by
    rw [Tool.contacts, ran]
    rfl
  refine ⟨ran, ⟨?_, ?_⟩, fun _ _ => visits.visit, ?_, ?_⟩
  · rintro ⟨result, connected⟩
    rcases visits with ⟨command, context, admits, _⟩ | ⟨_, none⟩
    · exact ⟨command, context, admits⟩
    · rw [none] at connected
      cases connected
  · rintro ⟨command, context, admits⟩
    exact (visits.visit admits).connects
  · intro nobody
    rcases visits with ⟨command, context, admits, _⟩ | ⟨_, none⟩
    · exact absurd admits (nobody command context)
    · exact none
  · intro command listed named context parsed unfit step
    rcases visits with ⟨other, its, admits, visit⟩ | ⟨_, none⟩
    · obtain rfl : other = command :=
        eq_of_name_eq admits.listed listed (Option.some.inj (admits.named.symm.trans named))
      obtain rfl : its = context := congrArg Prod.snd (admits.parsed.symm.trans parsed)
      exact visit.requests_nothing (fun _ _ => unfit.silent) step
    · rw [none]
      exact List.not_mem_nil

/-! ### A bare host -/

/-- A host with no files, and nothing else to be seen. -/
def bareHost : Host where
  files := .empty
  locks := []
  log := []
  clock := fun _ => ⟨0, 0⟩
  readings := 0
  process := 1

/-- The program with its logs and locks in two directories of their own. -/
def bareTool : Tool where
  settings :=
    { logDirectory := "logs", lockDirectory := "locks", systemRoot := "sys", vendor := 0x19e5
      device := 0xa12f, revision := 0x30, pollInterval := 0, polls := 3, lockAttempts := 5
      lockGap := 0, maxCommandBytes := 512 }
  chip := .hip09

/-- A command line for the packet filter tables of a port. -/
def portLine (choices : List String) : List String :=
  ["hikptool", "nic_ppp", "-i", "0000:bd:00.0", "-du"] ++ choices

/-- A session on a host, where the device gives these replies. -/
def scripted (host : Host) (replies : List Reply) : Session (ScriptedReplies Query) :=
  ⟨host, .unlimited, ⟨replies, []⟩⟩

/-- What the options of such a command line leave. -/
def portContext (feature : Feature Port.View) (function : Option UInt16) : Port.Context :=
  ⟨⟨⟨0, 0xbd0000⟩, none⟩, some feature, function, none⟩

def promiscuityFeature : Feature Port.View := ⟨"promisc", 4, false, .promiscuity⟩

theorem admits_portLine {choices : List String} {replies : List Reply} {host : Host}
    {context : Port.Context}
    (short : ((portLine choices).map String.utf8ByteSize).sum ≤ bareTool.settings.maxCommandBytes)
    (parsed : portCommand.parse bareTool.settings
      (bareTool.opened (portLine choices) (scripted host replies)).host.files
        ((portLine choices).drop 2) = (.ok .proceed, context))
    (lockable : FileLock.Takable (bareTool.opened (portLine choices) (scripted host replies)).host
      bareTool.settings.lockDirectory Command.lockName) :
    bareTool.Admits (portLine choices)
      (bareTool.opened (portLine choices) (scripted host replies)).host portCommand context :=
  ⟨List.mem_cons_of_mem _ List.mem_cons_self, rfl, rfl, short, parsed, lockable⟩

/-- The promiscuity of the functions is asked for over an opened channel. With a function besides
the channel is opened, but nothing is asked; and where the system locks no file, it stays closed. -/
theorem connects_portLine :
    let channel := Channel.direct ScriptedReplies.answer
    (∃ result, .connected result ∈
        bareTool.contacts channel (portLine ["promisc"]) (scripted bareHost [])) ∧
      (∃ result, .connected result ∈
        bareTool.contacts channel (portLine ["promisc", "-func", "1"]) (scripted bareHost [])) ∧
      (∀ step, .requested step ∉
        bareTool.contacts channel (portLine ["promisc", "-func", "1"]) (scripted bareHost [])) ∧
      bareTool.contacts channel (portLine ["promisc"])
        (scripted { bareHost with unlockable := fun _ => some ⟨37⟩ } []) = [] := by
  intro channel
  have fit : bareTool.Admits (portLine ["promisc"])
      (bareTool.opened (portLine ["promisc"]) (scripted bareHost [])).host portCommand
      (portContext promiscuityFeature none) :=
    admits_portLine (by decide) (by rfl) (by decide +kernel)
  have unfit : bareTool.Admits (portLine ["promisc", "-func", "1"])
      (bareTool.opened (portLine ["promisc", "-func", "1"]) (scripted bareHost [])).host portCommand
      (portContext promiscuityFeature (some 1)) :=
    admits_portLine (by decide) (by rfl) (by decide +kernel)
  refine ⟨?_, ?_, ?_, ?_⟩
  · exact (connects_iff_admitted bareTool channel (portLine ["promisc"])
      (scripted bareHost [])).2.1.mpr ⟨_, _, fit⟩
  · exact (connects_iff_admitted bareTool channel (portLine ["promisc", "-func", "1"])
      (scripted bareHost [])).2.1.mpr ⟨_, _, unfit⟩
  · exact (connects_iff_admitted bareTool channel (portLine ["promisc", "-func", "1"])
      (scripted bareHost [])).2.2.2.2 portCommand unfit.listed unfit.named _ unfit.parsed
        (.port (.overspecified rfl (by decide) (.inl rfl)))
  · refine (connects_iff_admitted bareTool channel (portLine ["promisc"])
      (scripted { bareHost with unlockable := fun _ => some ⟨37⟩ } [])).2.2.2.1 ?_
    intro command context admits
    exact absurd admits.lockable (by decide +kernel)

end Tool

end NicScope
