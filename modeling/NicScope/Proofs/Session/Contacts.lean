/-
This file says what a run of the program does to its channel, in the order in which it does it. A
channel that keeps a record of that changes nothing else about a run. A command that runs visits
the device at most once, and does so exactly if its options are read to their end and its lock can
be taken: it opens the channel, and if that succeeds holds its dialogue and closes the channel.
-/

import NicScope.Proofs.Session.Aloof
import NicScope.Proofs.Session.Locking
import NicScope.Proofs.Transfer.Held

namespace NicScope

open Dialogue

variable {τ α β : Type}

/-! ### Contacts -/

/-- Something that is done to a channel, with what comes of it. -/
inductive Contact where
  | connected (result : Except Error Unit)
  | requested (step : Query × Reply)
  | closed

/-- The channel that keeps everything that is done to it beside the peer. -/
def Channel.watched (channel : Channel τ) : Channel (τ × List Contact) where
  connect := fun (host, peer, past) =>
    let (result, host, peer) := channel.connect (host, peer)
    (result, host, peer, past ++ [.connected result])
  request query := fun (host, peer, past) =>
    let (reply, host, peer) := channel.request query (host, peer)
    (reply, host, peer, past ++ [.requested (query, reply)])
  close := fun (host, peer, past) =>
    let (host, peer) := channel.close (host, peer)
    (host, peer, past ++ [.closed])

/-- A session with a record of contacts. -/
def Session.after (session : Session τ) (past : List Contact) : Session (τ × List Contact) :=
  session.withPeer (session.peer, past)

/-- An action of a session that has the contacts which a course says; `twin` is the same action
with a channel that is watched. -/
abbrev Contacts (action : StateM (Session τ) α) (twin : StateM (Session (τ × List Contact)) α)
    (course : Course (Session τ) Contact α) : Prop :=
  Recorded Session.after action twin course

/-- What keeps away from the peer has no contact. -/
theorem Aloof.contacts {action : StateM (Session τ) α}
    {twin : StateM (Session (τ × List Contact)) α} (aloof : Aloof action twin) :
    Contacts action twin fun _ contacts _ _ => contacts = [] :=
  aloof.recorded Prod.mk fun _ _ => rfl

/-- One visit to the device: the channel is opened, a dialogue is held, the channel is closed. If
the channel cannot be opened that is all. -/
inductive Visit (exchange : Exchange α) : List Contact → Prop
  | refused (cause : Error) : Visit exchange [.connected (.error cause)]
  | held {requests : List (Query × Reply)} {outcome : Except Error α}
      (held : exchange.run.Held requests outcome) :
      Visit exchange (.connected (.ok ()) :: requests.map .requested ++ [.closed])

namespace Visit

variable {exchange : Exchange α} {contacts : List Contact}

theorem connects (visit : Visit exchange contacts) : ∃ result, .connected result ∈ contacts := by
  cases visit with
  | refused cause => exact ⟨_, List.mem_cons_self⟩
  | held _ => exact ⟨_, List.mem_cons_self⟩

/-- Where the dialogue asks nothing, nothing is requested. -/
theorem requests_nothing (visit : Visit exchange contacts)
    (silent : ∀ requests outcome, exchange.run.Held requests outcome → requests = [])
    (step : Query × Reply) : .requested step ∉ contacts := by
  cases visit with
  | refused cause => simp
  | held held =>
    rw [silent _ _ held]
    simp

end Visit

/-! ### Commands -/

section Commands

variable (channel : Channel τ)

theorem contacts_run (dialogue : Dialogue Query Reply α) :
    Contacts (dialogue.run (fun query => Session.onPeer (channel.request query)) Session.note)
      (dialogue.run (fun query => Session.onPeer (channel.watched.request query)) Session.note)
      fun _ contacts result _ => ∃ requests, contacts = requests.map .requested ∧
        dialogue.Held requests result := by
  refine recorded_run Contact.requested ?_ ?_ dialogue
  · exact fun _ _ _ => rfl
  · exact fun _ _ _ => rfl

theorem contacts_connect :
    Contacts (Session.onPeer channel.connect) (Session.onPeer channel.watched.connect)
      fun _ contacts result _ => contacts = [.connected result] :=
  fun _ _ => ⟨_, rfl, rfl⟩

theorem contacts_close :
    Contacts (Session.onPeer fun ends => ((), channel.close ends))
      (Session.onPeer fun ends => ((), channel.watched.close ends))
      fun _ contacts _ _ => contacts = [.closed] :=
  fun _ _ => ⟨_, rfl, rfl⟩

variable (command : Command) (context : command.Context)

/-- Whether the dump is written or not, the contacts are those of the dialogue. -/
theorem contacts_perform :
    Contacts (command.perform channel context).run (command.perform channel.watched context).run
      fun _ contacts _ _ => ∃ requests outcome, contacts = requests.map .requested ∧
        (command.execute context).run.Held requests outcome := by
  refine (Recorded.step _ (contacts_run channel (command.execute context).run)
    fun dump => (Aloof.dump dump).contacts).mono ?_
  rintro _ _ _ _ ⟨_, later, outcome, _, rfl, ⟨requests, rfl, held⟩, rest⟩
  refine ⟨requests, outcome, ?_, held⟩
  cases outcome with
  | ok dump =>
    obtain rfl : later = [] := rest
    exact List.append_nil _
  | error cause =>
    obtain ⟨rfl, _⟩ := rest
    exact List.append_nil _

theorem contacts_connected :
    Contacts (command.connected channel context) (command.connected channel.watched context)
      fun _ contacts _ _ => Visit (command.execute context) contacts := by
  refine (Recorded.bindTo
    (fun opened _ contacts _ _ => Visit (command.execute context) (.connected opened :: contacts))
    (contacts_connect channel) fun opened => ?_).mono ?_
  · cases opened with
    | error cause =>
      refine (Aloof.pure _).contacts.mono ?_
      rintro _ _ _ _ rfl
      exact .refused cause
    | ok _ =>
      refine (Recorded.bindTo (fun _ _ contacts _ _ => contacts = [.closed])
        (contacts_perform channel command context) fun result => ?_).mono ?_
      · refine (Recorded.bindTo (fun _ _ contacts _ _ => contacts = []) (contacts_close channel)
          fun _ => ?_).mono ?_
        · cases result with
          | ok _ => exact (Aloof.pure _).contacts
          | error cause => exact ((Aloof.explain command cause).bind fun _ => .pure _).contacts
        · rintro _ _ _ _ ⟨_, _, _, _, rfl, rfl, rfl⟩
          rfl
      · rintro _ _ _ _ ⟨_, _, _, _, rfl, ⟨requests, outcome, rfl, held⟩, rfl⟩
        exact .held held
  · rintro _ _ _ _ ⟨_, _, _, _, rfl, rfl, visit⟩
    exact visit

/-- The device is visited if the lock can be taken. -/
theorem contacts_locked (settings : Settings) :
    Contacts (command.locked settings channel context).run
      (command.locked settings channel.watched context).run
      fun session contacts _ _ =>
        FileLock.Takable session.host settings.lockDirectory Command.lockName ∧
            Visit (command.execute context) contacts ∨
          ¬ FileLock.Takable session.host settings.lockDirectory Command.lockName ∧
            contacts = [] := by
  refine (Recorded.step (fun _ _ contacts _ _ => Visit (command.execute context) contacts)
    (Aloof.onHost (Command.acquireLock settings).run).contacts.exactly fun lock => ?_).mono ?_
  · refine ((contacts_connected channel command context).bind fun result =>
      ((Aloof.onHost lock.release).bind fun _ => .pure result).contacts).mono ?_
    rintro _ _ _ _ ⟨contacts, _, _, _, rfl, visit, rfl⟩
    rw [List.append_nil]
    exact visit
  · rintro session _ _ _ ⟨_, _, taken, _, rfl, ⟨rfl, ran⟩, later⟩
    have result : ((Command.acquireLock settings).run session.host).1 = taken :=
      (congrArg Prod.fst ran).symm
    rw [← Command.succeeds_acquireLock_iff, Succeeds, result]
    cases taken with
    | ok lock => exact .inl ⟨⟨lock, rfl⟩, later⟩
    | error cause =>
      refine .inr ⟨?_, later.1⟩
      rintro ⟨_, ⟨⟩⟩

/-- The device is visited if the options are read to their end and the lock can be taken. -/
theorem contacts_command (settings : Settings) (tokens : List String) :
    Contacts (command.run settings channel tokens).run
      (command.run settings channel.watched tokens).run
      fun session contacts _ _ =>
        (∃ context, command.parse settings session.host.files tokens = (.ok .proceed, context) ∧
            FileLock.Takable session.host settings.lockDirectory Command.lockName ∧
            Visit (command.execute context) contacts) ∨
          (∀ context, command.parse settings session.host.files tokens = (.ok .proceed, context) →
            ¬ FileLock.Takable session.host settings.lockDirectory Command.lockName) ∧
            contacts = [] := by
  intro session past
  have same : (session.after past).host.files = session.host.files := rfl
  rw [Command.run, Command.run]
  simp only [ExceptT.run_mk, same]
  -- The options are read from the files of the session, which the record leaves alone.
  rcases parsed : command.parse settings session.host.files tokens with ⟨cause | _ | _, context⟩
  · obtain ⟨_, ran, rfl⟩ :=
      ((Aloof.explain command cause).bind fun cause => .pure (Except.error cause)).contacts
        session past
    exact ⟨[], ran, .inr ⟨nofun, rfl⟩⟩
  · obtain ⟨contacts, ran, visits⟩ :=
      contacts_locked channel command context settings session past
    refine ⟨contacts, ran, visits.imp ?_ ?_⟩
    · rintro ⟨lockable, visit⟩
      exact ⟨context, rfl, lockable, visit⟩
    · rintro ⟨locked, rfl⟩
      exact ⟨fun _ _ => locked, rfl⟩
  · obtain ⟨_, ran, rfl⟩ := (Aloof.print command.help).contacts session past
    exact ⟨[], ran, .inr ⟨nofun, rfl⟩⟩

end Commands

end NicScope
