/-
This file proves that a command does the same however its options are ordered and spelled. If each
is given once, with a value that it takes, every arrangement of them is read to one context, and the
command goes on in one way from any session over any channel; else every arrangement is refused.
-/

import NicScope.Proofs.Command.OptionOrder
import NicScope.Proofs.Session.RequestTarget
import NicScope.Proofs.Session.Stages

namespace NicScope

open OptionRegistry

namespace Command

/-- However choices are ordered and spelled, a command reads them to one context, and goes on in
one way from any session over any channel, or it refuses them. It reads them exactly if no option is
given twice and none refuses its value. -/
theorem parse_arranged {command : Command} (known : command ∈ Tool.commands)
    (settings : Settings) (files : FileTree) (choices : List OptionChoice) :
    let options := command.options files settings.systemRoot
    (Takable options choices command.initial ∧
      ∃ context, ∀ tokens, Arranges options choices tokens →
        command.parse settings files tokens = (.ok .proceed, context) ∧
          ∀ {τ : Type} (channel : Channel τ) (session : Session τ), session.host.files = files →
            (command.run settings channel tokens).run session =
              (command.locked settings channel context).run session) ∨
    (¬ Takable options choices command.initial ∧
      ∀ tokens, Arranges options choices tokens →
        ∃ cause, (command.parse settings files tokens).1 = .error cause) := by
  intro options
  obtain ⟨registered, independent⟩ :
      (empty.registerAll options).options = options ∧ Independent options :=
    independent_of_mem known
  have read (tokens : List String) : command.parse settings files tokens =
      (parseFrom options [] tokens).run command.initial := by
    rw [parse, OptionRegistry.parse, registered]
  rcases independent.reads_arranged choices command.initial with
    ⟨takable, context, proceeds⟩ | ⟨untakable, fails⟩
  · refine .inl ⟨takable, context, fun tokens arranges => ?_⟩
    have parsed := (read tokens).trans (proceeds tokens arranges)
    refine ⟨parsed, fun channel session same => run_of_parse ?_⟩
    rw [same, parsed]
  · refine .inr ⟨untakable, fun tokens arranges => ?_⟩
    rw [read]
    exact fails tokens arranges

/-- The unicast addresses of a function are chosen in whatever order. -/
theorem parse_arranged_addresses :
    let choices : List OptionChoice := [⟨1, "0000:bd:00.0"⟩, ⟨2, "mac"⟩, ⟨3, "1"⟩, ⟨4, "1"⟩]
    let options := portCommand.options .empty Tool.bareTool.settings.systemRoot
    portCommand ∈ Tool.commands ∧
      Arranges options choices
        ["--unicast", "1", "-func", "1", "--interface", "0000:bd:00.0", "-du", "mac"] ∧
      ∃ context, ∀ tokens, Arranges options choices tokens →
        portCommand.parse Tool.bareTool.settings .empty tokens = (.ok .proceed, context) := by
  intro choices options
  have known : portCommand ∈ Tool.commands := List.mem_cons_of_mem _ List.mem_cons_self
  have arranged : Arranges options choices
      ["--unicast", "1", "-func", "1", "--interface", "0000:bd:00.0", "-du", "mac"] := by
    refine ⟨[⟨4, "1"⟩, ⟨3, "1"⟩, ⟨1, "0000:bd:00.0"⟩, ⟨2, "mac"⟩], by decide, ?_⟩
    exact .choice rfl rfl (.inr rfl) rfl (.choice rfl rfl (.inl rfl) rfl
      (.choice rfl rfl (.inr rfl) rfl (.choice rfl rfl (.inl rfl) rfl .nothing)))
  have takable : Takable options choices portCommand.initial :=
    ⟨by decide, by decide +kernel⟩
  rcases parse_arranged known Tool.bareTool.settings .empty choices with
    ⟨_, context, reads⟩ | ⟨untakable, _⟩
  · exact ⟨known, arranged, context, fun tokens arranges => (reads tokens arranges).1⟩
  · exact absurd takable untakable

end Command

end NicScope
