/-
This file proves which function of a device a run asks. All requests of a run are about one and
the same target, the one that the options of the command choose. If they name one it is what the
name is resolved to, and its address is one whose numbers have been checked. But an option that
names the target is not asked for: without it the requests go to the address that the command
begins with, which no check would let through.
-/

import NicScope.Proofs.Command.ChosenTarget
import NicScope.Proofs.Session.Attempts
import NicScope.Transfer.Scripted

namespace NicScope

variable {τ : Type}

/-! ### Checked addresses -/

namespace PciAddress

/-- An address that is built from numbers which fit their widths. -/
def Checked (address : PciAddress) : Prop :=
  ∃ domain bus device function, ofNumbers domain bus device function = .ok address

theorem checked_of_toOption {domain bus device function : UInt32} {address : PciAddress}
    (built : (ofNumbers domain bus device function).toOption = some address) :
    address.Checked := by
  refine ⟨domain, bus, device, function, ?_⟩
  cases outcome : ofNumbers domain bus device function with
  | ok given =>
    rw [outcome] at built
    cases built
    rfl
  | error numbers =>
    rw [outcome] at built
    cases built

/-- Reading an address checks its numbers. -/
theorem checked_of_parse {text : String} {address : PciAddress}
    (read : parse? text = some address) :
    address.Checked := by
  rw [parse?] at read
  split at read
  · cases read
  · split at read
    next => cases read
    next =>
      split at read
      next => exact checked_of_toOption read
      next => exact checked_of_toOption read
      next => cases read

theorem pack_ne_zero {bus device function : UInt32} (present : bus ≠ 0) (fits : bus ≤ 0xff) :
    pack bus device function ≠ 0 := by
  intro none
  obtain ⟨_, shifted⟩ := UInt32.or_eq_zero_iff.mp none
  have number : bus.toNat <<< 16 % 2 ^ 32 = 0 := congrArg UInt32.toNat shifted
  have small : bus.toNat ≤ 255 := fits
  rw [Nat.shiftLeft_eq] at number
  have zero : bus.toNat = 0 := by omega
  exact present (UInt32.toNat_inj.mp zero)

/-- The address that names nothing passes no check. -/
theorem not_checked_zero : ¬ zero.Checked := by
  rintro ⟨domain, bus, device, function, built⟩
  rw [ofNumbers] at built
  split at built
  next inRange =>
    exact pack_ne_zero inRange.2.1 inRange.2.2.1 (congrArg packed (Except.ok.inj built))
  next => cases built

end PciAddress

namespace Target

variable {files : FileTree} {systemRoot name : String} {target : Target}

theorem checked_of_ofInterface (found : ofInterface files systemRoot name = .ok target) :
    target.address.Checked := by
  rw [ofInterface] at found
  dsimp only at found
  split at found
  next => cases found
  next =>
    split at found
    next => cases found
    next =>
      split at found
      next => cases found
      next address linked =>
        obtain ⟨text, _, read⟩ := Option.bind_eq_some_iff.mp linked
        split at found
        next =>
          cases found
          exact PciAddress.checked_of_parse read
        next => cases found

/-- Whatever a name is resolved to has a checked address. -/
theorem checked_of_resolve (resolved : resolve files systemRoot name = .ok target) :
    target.address.Checked := by
  rw [resolve] at resolved
  split at resolved
  next address read =>
    cases resolved
    exact PciAddress.checked_of_parse read
  next =>
    split at resolved
    next given found =>
      cases resolved
      exact checked_of_ofInterface found
    next => cases resolved

end Target

/-! ### The target of a run -/

theorem Command.Does.chooses {command : Command} {context : command.Context} {target : Target}
    {plan : Plan Dump} (does : command.Does context target plan)
    {settings : Settings} {files : FileTree} {tokens : List String}
    (parsed : command.parse settings files tokens = (.ok .proceed, context)) :
    Interface.Chooses files settings.systemRoot .unset tokens target := by
  cases does with
  | director context => exact Director.chooses_of_parse parsed
  | port context => exact Port.chooses_of_parse parsed
  | scaling context => exact Scaling.chooses_of_parse parsed

/-- The address of a chosen target has been checked exactly if the target was named. -/
theorem Interface.Chooses.checked_iff {files : FileTree} {systemRoot : String}
    {tokens : List String} {target : Target}
    (chooses : Chooses files systemRoot .unset tokens target) :
    target.address.Checked ↔ ∃ token ∈ tokens, token ∈ forms := by
  cases chooses with
  | named option _ resolved =>
    refine iff_of_true (Target.checked_of_resolve resolved) ⟨_, ?_, option⟩
    exact List.mem_append_right _ List.mem_cons_self
  | unnamed absent =>
    refine iff_of_false PciAddress.not_checked_zero ?_
    rintro ⟨token, member, form⟩
    exact absent token member form

namespace Tool

/-- All requests of a run are about one target, which the command line chooses, and whose address
has been checked exactly if the command line names it. -/
theorem requests_target (tool : Tool) (channel : Channel τ) (arguments : List String)
    (session : Session τ) :
    tool.requests channel arguments session = [] ∨ ∃ target : Target,
      (∀ step ∈ tool.requests channel arguments session, step.1.Names target.address) ∧
      Interface.Chooses (tool.opened arguments session).host.files tool.settings.systemRoot .unset
        (arguments.drop 2) target ∧
      (target.address.Checked ↔ ∃ token ∈ arguments.drop 2, token ∈ Interface.forms) := by
  by_cases none : tool.requests channel arguments session = []
  · exact .inl none
  · obtain ⟨command, context, converses⟩ := exists_converses none
    obtain ⟨target, plan, does⟩ := Command.exists_does converses.admits.listed context
    have chooses := does.chooses converses.admits.parsed
    exact .inr ⟨target, converses.names does, chooses, chooses.checked_iff⟩

/-- Nothing names a target, and yet a request is sent, to the address that names nothing. -/
theorem requests_unnamed :
    (bareTool.requests (.direct ScriptedReplies.answer) ["hikptool", "nic_rss", "-g", "algo"]
        ⟨bareHost, .unlimited, (⟨[.ok ⟨0, 0, [0x101, 2]⟩], []⟩ : ScriptedReplies Query)⟩).map
        (fun step => step.1.words) = [[0, 0, 0]] ∧
      (∀ token ∈ ["-g", "algo"], token ∉ Interface.forms) ∧
      ¬ PciAddress.Checked ⟨0, 0⟩ :=
  ⟨by decide +kernel, by decide, PciAddress.not_checked_zero⟩

end Tool

end NicScope
