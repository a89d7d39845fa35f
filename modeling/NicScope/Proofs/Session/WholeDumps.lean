/-
This file proves that the output of a command is all or nothing. Whatever comes of the requests, a
command that fails has written nothing, and one that does not fail has written a whole dump: the
line that names the view, the view of all the tables that were fetched, and the closing line. The
two lines cannot be mistaken, since nothing between them has the sign that they are drawn with.
-/

import NicScope.Proofs.Command.UnfitChoices
import NicScope.Proofs.Command.UnmarkedViews
import NicScope.Proofs.Session.Requests
import NicScope.Proofs.Transfer.Orders
import NicScope.Transfer.Scripted

namespace NicScope

open Dialogue

variable {τ α : Type}

/-! ### Writing a dump -/

theorem Dump.text_cons_text (text : String) (rest : Dump) :
    Dump.text (.text text :: rest) = text ++ Dump.text rest :=
  String.join_cons

theorem Dump.text_cons_note (record : LogRecord) (rest : Dump) :
    Dump.text (.note record :: rest) = Dump.text rest := by
  rw [Dump.text, List.map_cons, String.join_cons, String.empty_append]
  rfl

theorem Dump.text_append (dump more : Dump) :
    Dump.text (dump ++ more) = dump.text ++ more.text := by
  rw [Dump.text, List.map_append, String.join_append]
  rfl

theorem Dump.text_singleton (text : String) : Dump.text [.text text] = text := by
  rw [text_cons_text]
  exact String.append_empty

/-- A dump begins with its banner and ends with the closing line. -/
theorem Dump.text_framed (banner : String) (view : Dump) :
    (Dump.framed banner view).text = banner ++ "\n" ++ view.text ++ Dump.closing := by
  rw [Dump.framed, text_append, text_cons_text, text_singleton]

/-- To an output that takes everything a dump is written as a whole. -/
theorem Dump.run_print (dump : Dump) {session : Session τ} {before : String}
    (unlimited : session.output = .intact before none) :
    (dump.print.run session).1 = .ok () ∧
      (dump.print.run session).2.output = .intact (before ++ dump.text) none := by
  induction dump generalizing session before with
  | nil =>
    refine ⟨rfl, unlimited.trans ?_⟩
    rw [show Dump.text [] = "" from rfl, String.append_empty]
  | cons piece rest inductionHypothesis =>
    cases piece with
    | text text =>
      have writes : (Session.print text : Step τ Unit).run session =
          (.ok (), { session with output := .intact (before ++ text) none }) := by
        rw [Session.print]
        change ((session.output.write text).1.mapError Error.io,
          { session with output := (session.output.write text).2 }) = _
        rw [unlimited]
        rfl
      have goes : (Dump.print (.text text :: rest)).run session =
          (Dump.print rest).run { session with output := .intact (before ++ text) none } := by
        change ExceptT.bindCont (fun _ => Dump.print rest)
          ((Session.print text : Step τ Unit).run session).1
          ((Session.print text : Step τ Unit).run session).2 = _
        rw [writes]
        rfl
      rw [goes, text_cons_text, ← String.append_assoc]
      exact inductionHypothesis rfl
    | note record =>
      have stays : (session.note record).output = .intact before none := unlimited
      rw [text_cons_note]
      exact inductionHypothesis stays

/-- A dialogue writes nothing. -/
theorem Session.output_run (channel : Channel τ) (dialogue : Dialogue Query Reply α)
    (session : Session τ) :
    (dialogue.run (fun query => onPeer (channel.request query)) note session).2.output =
      session.output := by
  induction dialogue generalizing session with
  | done result => rfl
  | ask query next inductionHypothesis => exact inductionHypothesis _ _
  | tell record next inductionHypothesis => exact inductionHypothesis (session.note record)

/-! ### What is shown -/

/-- An error is put into other words, and a result stays as it is. -/
theorem Exchange.held_withCause {describe : Error → Error} {exchange : Exchange α}
    {requests : List (Query × Reply)} {value : α}
    (held : (Fetch.withCause describe exchange).run.Held requests (.ok value)) :
    exchange.run.Held requests (.ok value) := by
  obtain ⟨given, fetches, same⟩ := Held.of_bind_done held
  cases given with
  | ok found =>
    cases same
    exact fetches
  | error cause => cases same

/-- What goes on with a choice goes on with what was chosen. -/
theorem Exchange.held_choice {β : Type} {choice : Except Error α} {next : α → Exchange β}
    {requests : List (Query × Reply)} {value : β}
    (held : (Fetch.fromExcept choice >>= next).run.Held requests (.ok value)) :
    ∃ chosen, choice = .ok chosen ∧ (next chosen).run.Held requests (.ok value) := by
  cases choice with
  | ok chosen => exact ⟨chosen, rfl, held⟩
  | error cause =>
    have ends : (.done (.error cause) : Dialogue Query Reply (Except Error β)).Held requests
      (.ok value) := held
    cases ends

/-- The steps and the value before a result that is made of the value. -/
theorem Exchange.held_map {β : Type} {exchange : Exchange α} {change : α → β}
    {requests : List (Query × Reply)} {value : β}
    (held : (exchange >>= fun given => pure (change given)).run.Held requests (.ok value)) :
    ∃ given, exchange.run.Held requests (.ok given) ∧ value = change given := by
  rcases Exchange.held_bind held with ⟨_, _, ⟨⟩⟩ | ⟨before, later, given, rfl, fetches, rest⟩
  cases rest with
  | done =>
    rw [List.append_nil]
    exact ⟨given, fetches, rfl⟩

/-- The sizes that a view of a port is read and shown with; zero where it needs none. -/
def Port.fetchSizes (context : Context) (feature : Feature View) : Exchange PortResources :=
  if feature.needsSizes then fetchResources context.target.address
  else pure ⟨0, 0, 0, 0, 0, 0, 0, 0⟩

/-- The sizes are asked for first, and what follows is the same with them and without. -/
theorem Port.execute_eq (context : Context) :
    execute context = (do
      let feature ← Fetch.fromExcept (choice context)
      let resources ← fetchSizes context feature
      Fetch.fromExcept (checkFunction context resources)
      let tables ← Fetch.withCause (.query feature.name) (fetchTables context feature resources)
      return Dump.framed ("############## NIC PPP: " ++ feature.name ++ " info ############")
        [.text (Dump.lines (tables.view resources context.target.address.function context.function
          (context.unicast == some true)))]) := by
  refine congrArg (Fetch.fromExcept (choice context) >>= ·) (funext fun feature => ?_)
  rw [fetchSizes]
  split
  · rfl
  · rfl

namespace Command

/-- A command shows a view with these requests: a feature was chosen, the requests brought all
tables of its view, the banner names the feature, and the body is the text of the view. -/
inductive Shows : (command : Command) → command.Context → List (Query × Reply) →
    (banner body : String) → Prop
  | director {context : Director.Context} {feature : Feature Director.View}
      {requests : List (Query × Reply)} {tables : DirectorTables}
      (chosen : context.feature = some feature)
      (fetched : (Director.fetchTables context feature).run.Held requests (.ok tables)) :
      Shows directorCommand context requests
        ("############## NIC FD: " ++ feature.name ++ " info ############")
        (tables.view (Director.chosenStage context)).text
  | port {context : Port.Context} {feature : Feature Port.View}
      {sizing reading : List (Query × Reply)} {resources : PortResources} {tables : PortTables}
      (chosen : context.feature = some feature)
      (sized : (Port.fetchSizes context feature).run.Held sizing (.ok resources))
      (fetched : (Port.fetchTables context feature resources).run.Held reading (.ok tables)) :
      Shows portCommand context (sizing ++ reading)
        ("############## NIC PPP: " ++ feature.name ++ " info ############")
        (Dump.lines (tables.view resources context.target.address.function context.function
          (context.unicast == some true)))
  | scaling {context : Scaling.Context} {feature : Feature Scaling.View}
      {requests : List (Query × Reply)} {tables : Scaling.Tables}
      (chosen : context.feature = some feature)
      (fetched : (Scaling.fetchTables context feature).run.Held requests (.ok tables)) :
      Shows scalingCommand context requests
        ("################### RSS " ++ feature.name ++ " ###################")
        tables.view.text

/-- Nothing between the first and the last line has a number sign. -/
theorem Shows.unmarked {command : Command} {context : command.Context}
    {requests : List (Query × Reply)} {banner body : String}
    (shows : command.Shows context requests banner body) : Unmarked body := by
  cases shows with
  | director _ _ => exact DirectorTables.unmarked_view _ _
  | port _ _ _ => exact unmarked_lines.mpr (PortTables.allUnmarked_view _ _ _ _ _)
  | scaling _ _ => exact Scaling.Tables.unmarked_view _

section Commands

variable {requests : List (Query × Reply)} {dump : Dump}

theorem shows_of_director {context : Director.Context}
    (held : (Director.execute context).run.Held requests (.ok dump)) :
    ∃ banner body, directorCommand.Shows context requests banner body ∧
      dump.text = banner ++ "\n" ++ body ++ Dump.closing := by
  obtain ⟨feature, chosen, held⟩ := Exchange.held_choice held
  obtain ⟨tables, fetched, rfl⟩ := Exchange.held_map held
  rw [Director.choice_eq] at chosen
  exact ⟨_, _, .director (chosen_of_checkedChoice chosen) fetched, Dump.text_framed _ _⟩

theorem shows_of_port {context : Port.Context}
    (held : (Port.execute context).run.Held requests (.ok dump)) :
    ∃ banner body, portCommand.Shows context requests banner body ∧
      dump.text = banner ++ "\n" ++ body ++ Dump.closing := by
  rw [Port.execute_eq] at held
  obtain ⟨feature, chosen, held⟩ := Exchange.held_choice held
  rcases Exchange.held_bind held with ⟨_, _, ⟨⟩⟩ | ⟨sizing, reading, resources, rfl, sized, held⟩
  obtain ⟨_, _, held⟩ := Exchange.held_choice held
  obtain ⟨tables, fetched, rfl⟩ := Exchange.held_map held
  rw [Port.choice_eq] at chosen
  refine ⟨_, _, .port (chosen_of_checkedChoice chosen) sized (Exchange.held_withCause fetched), ?_⟩
  rw [Dump.text_framed, Dump.text_singleton]

theorem shows_of_scaling {context : Scaling.Context}
    (held : (Scaling.execute context).run.Held requests (.ok dump)) :
    ∃ banner body, scalingCommand.Shows context requests banner body ∧
      dump.text = banner ++ "\n" ++ body ++ Dump.closing := by
  obtain ⟨feature, chosen, held⟩ := Exchange.held_choice held
  obtain ⟨tables, fetched, rfl⟩ := Exchange.held_map held
  exact ⟨_, _, .scaling (Scaling.feature_of_choice chosen) (Exchange.held_withCause fetched),
    Dump.text_framed _ _⟩

/-- A dialogue that does not fail ends with a whole dump of what was fetched. -/
theorem exists_shows {command : Command} (listed : command ∈ Tool.commands)
    {context : command.Context} (held : (command.execute context).run.Held requests (.ok dump)) :
    ∃ banner body, command.Shows context requests banner body ∧
      dump.text = banner ++ "\n" ++ body ++ Dump.closing := by
  simp only [Tool.commands, List.mem_cons, List.not_mem_nil, or_false] at listed
  rcases listed with rfl | rfl | rfl
  · exact shows_of_director held
  · exact shows_of_port held
  · exact shows_of_scaling held

end Commands

/-! ### All or nothing -/

/-- The output of a command is all or nothing: with the requests that were made it either fails as
its dialogue does and has written nothing, or it has written a whole dump. -/
def AllOrNothing (command : Command) (context : command.Context) (channel : Channel τ)
    (session : Session τ) (before : String) : Prop :=
  let ran := (command.perform channel context).run session
  ∃ requests,
    (command.perform channel.recording context).run (session.keep []) =
      (ran.1, ran.2.keep requests) ∧
    ((∃ cause, ran.1 = .error cause ∧ ran.2.output = .intact before none ∧
        (command.execute context).run.Held requests (.error cause)) ∨
      ran.1 = .ok () ∧ ∃ banner body,
        ran.2.output = .intact (before ++ (banner ++ "\n" ++ body ++ Dump.closing)) none ∧
          command.Shows context requests banner body ∧ Unmarked body)

/-- Whatever the peer does, a command writes to an output that takes everything a whole dump or
nothing. -/
theorem allOrNothing_perform {command : Command} (listed : command ∈ Tool.commands)
    (context : command.Context) (channel : Channel τ) {session : Session τ} {before : String}
    (unlimited : session.output = .intact before none) :
    command.AllOrNothing context channel session before := by
  have course : Requests (command.perform channel context).run
      (command.perform channel.recording context).run _ :=
    Recorded.step _ (requests_converse channel (command.execute context)).exactly
      fun dump => (Aloof.dump dump).silent.exactly
  obtain ⟨_, ran, asked, later, outcome, middle, rfl, ⟨held, talked⟩, rest⟩ := course session []
  -- The output is still what it was when the dialogue has ended.
  have clean : middle.output = .intact before none := by
    rw [← unlimited, ← Session.output_run channel (command.execute context).run session]
    exact congrArg (fun step => step.2.output) talked
  cases outcome with
  | error cause =>
    obtain ⟨rfl, failed, stays⟩ := rest
    rw [List.append_nil] at ran
    refine ⟨asked, ran, .inl ⟨cause, failed, ?_, held⟩⟩
    rw [stays]
    exact clean
  | ok dump =>
    obtain ⟨rfl, printed⟩ := rest
    rw [List.append_nil] at ran
    obtain ⟨banner, body, shows, text⟩ := exists_shows listed held
    obtain ⟨succeeds, written⟩ := dump.run_print clean
    rw [← printed] at succeeds written
    refine ⟨asked, ran, .inr ⟨succeeds, banner, body, ?_, shows, shows.unmarked⟩⟩
    rw [← text]
    exact written

/-- A session at whose other end the hash algorithm is told. -/
def algorithmSession : Session (ScriptedReplies Query) where
  host :=
    { files := .empty, locks := [], log := [], clock := fun _ => ⟨0, 0⟩, readings := 0
      process := 1 }
  output := .unlimited
  peer := ⟨[.ok ⟨0, 0, [0x101, 2]⟩], []⟩

/-- The hash algorithm is told, and a whole dump is written. -/
theorem allOrNothing_perform_algorithm :
    scalingCommand ∈ Tool.commands ∧ algorithmSession.output = .intact "" none ∧
      scalingCommand.AllOrNothing (⟨.unset, some ⟨"algo", 0, false, .algorithm⟩⟩ : Scaling.Context)
        (.direct ScriptedReplies.answer) algorithmSession "" ∧
      ((scalingCommand.perform (.direct ScriptedReplies.answer)
          (⟨.unset, some ⟨"algo", 0, false, .algorithm⟩⟩ : Scaling.Context)).run
            algorithmSession).2.output =
        .intact ("################### RSS algo ###################\n" ++
          "RSS hash algo: Symmetric Toeplitz.\n" ++
          "#################### END #######################\n") none := by
  have listed : scalingCommand ∈ Tool.commands :=
    List.mem_cons_of_mem _ (List.mem_cons_of_mem _ List.mem_cons_self)
  exact ⟨listed, rfl, allOrNothing_perform listed _ _ rfl, by decide +kernel⟩

end Command

end NicScope
