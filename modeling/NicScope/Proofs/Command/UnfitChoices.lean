/-
This file says which options of a command do not go together. They are refused before anything is
asked: the target must be a physical function, there must be a view, and the other choices must be
those that the view goes with. Nothing else is refused beforehand.
-/

import NicScope.Proofs.Transfer.Held
import NicScope.Tool

namespace NicScope

open Dialogue

/-- A check that ends with an error. -/
def Refuses {α : Type} (result : Except Error α) : Prop :=
  ∃ cause, result = .error cause

/-- Where a choice is refused nothing is asked. -/
theorem Refuses.silent {α β : Type} {choice : Except Error α} (refuses : Refuses choice)
    {next : α → Exchange β} {requests : List (Query × Reply)} {outcome : Except Error β}
    (held : (Fetch.fromExcept choice >>= next).run.Held requests outcome) : requests = [] := by
  obtain ⟨cause, rfl⟩ := refuses
  have ends : (Dialogue.done (.error cause) : Dialogue Query Reply _).Held requests outcome := held
  cases ends with
  | done => rfl

/-! ### Checked choices -/

section Checked

/-- What was chosen for a target: the target must be a physical function, and what was chosen
must pass a check of its own. -/
def checkedChoice {ν : Type} (target : Target) (chosen : Option ν) (check : ν → Except Error Unit)
    (complaint : String) : Except Error ν := do
  target.requirePhysical
  match chosen with
  | none => .error (.usage complaint)
  | some value =>
    check value
    return value

variable {ν : Type} {target : Target} {chosen : Option ν} {check : ν → Except Error Unit}
  {complaint : String}

theorem refuses_checkedChoice_iff :
    Refuses (checkedChoice target chosen check complaint) ↔
      target.address.device ≠ 0 ∨ chosen = none ∨
        ∃ value, chosen = some value ∧ Refuses (check value) := by
  unfold checkedChoice Target.requirePhysical
  split
  next physical =>
    rw [or_iff_right (not_not_intro physical)]
    cases chosen with
    | none => exact iff_of_true ⟨_, rfl⟩ (.inl rfl)
    | some value =>
      change Refuses (check value >>= fun _ => pure value) ↔ _
      cases checked : check value with
      | ok _ =>
        refine iff_of_false nofun ?_
        rintro (⟨⟨⟩⟩ | ⟨_, ⟨⟩, _, fails⟩)
        cases checked.symm.trans fails
      | error cause => exact iff_of_true ⟨cause, rfl⟩ (.inr ⟨value, rfl, cause, checked⟩)
  next virtual => exact iff_of_true ⟨_, rfl⟩ (.inl virtual)

/-- A choice that is not refused is what was chosen. -/
theorem chosen_of_checkedChoice {value : ν}
    (good : checkedChoice target chosen check complaint = .ok value) : chosen = some value := by
  unfold checkedChoice Target.requirePhysical at good
  split at good
  next =>
    cases chosen with
    | none => cases good
    | some found =>
      change (check found >>= fun _ => pure found) = _ at good
      cases checked : check found with
      | ok _ =>
        rw [checked] at good
        exact congrArg some (Except.ok.inj good)
      | error cause =>
        rw [checked] at good
        cases good
  next => cases good

end Checked

/-! ### Flow director -/

namespace Director

/-- What the options chose cannot be dumped: the target is no physical function, no view was
chosen, the hardware was chosen together with an index or a stage, or another view without a
stage. -/
inductive Unfit (context : Context) : Prop
  | virtual (here : context.target.address.device ≠ 0)
  | viewless (here : context.feature = none)
  | overspecified {feature : Feature View} (chosen : context.feature = some feature)
      (kind : feature.kind = .hardware)
      (here : context.index.isSome = true ∨ context.stage.isSome = true)
  | stageless {feature : Feature View} (chosen : context.feature = some feature)
      (kind : feature.kind ≠ .hardware) (here : context.stage = none)

variable {context : Context}

theorem refuses_checkChoices_iff {feature : Feature View} :
    Refuses (checkChoices context feature) ↔
      feature.kind = .hardware ∧ (context.index.isSome = true ∨ context.stage.isSome = true) ∨
        feature.kind ≠ .hardware ∧ context.stage = none := by
  rw [checkChoices]
  rcases context with ⟨target, chosen, index, stage⟩
  cases feature.kind with
  | hardware => cases index <;> cases stage <;> simp [Refuses]
  | rules => cases stage <;> simp [Refuses]
  | counters => cases stage <;> simp [Refuses]

theorem choice_eq :
    choice context = checkedChoice context.target context.feature (checkChoices context)
      "-du/--dump parameter error!" := by
  unfold choice checkedChoice
  cases context.feature with
  | none => rfl
  | some feature => rfl

theorem refuses_choice_iff : Refuses (choice context) ↔ Unfit context := by
  rw [choice_eq, refuses_checkedChoice_iff]
  constructor
  · rintro (here | here | ⟨feature, chosen, refuses⟩)
    · exact .virtual here
    · exact .viewless here
    · rcases refuses_checkChoices_iff.mp refuses with ⟨kind, here⟩ | ⟨kind, here⟩
      · exact .overspecified chosen kind here
      · exact .stageless chosen kind here
  · intro unfit
    cases unfit with
    | virtual here => exact .inl here
    | viewless here => exact .inr (.inl here)
    | overspecified chosen kind here =>
      exact .inr (.inr ⟨_, chosen, refuses_checkChoices_iff.mpr (.inl ⟨kind, here⟩)⟩)
    | stageless chosen kind here =>
      exact .inr (.inr ⟨_, chosen, refuses_checkChoices_iff.mpr (.inr ⟨kind, here⟩)⟩)

end Director

/-! ### Packet filter tables -/

namespace Port

/-- What the options chose cannot be dumped: the target is no physical function, no view was
chosen, the addresses were chosen with only one of a function and a kind, the VLANs with a kind,
or another view with a function or a kind. -/
inductive Unfit (context : Context) : Prop
  | virtual (here : context.target.address.device ≠ 0)
  | viewless (here : context.feature = none)
  | halfSpecified {feature : Feature View} (chosen : context.feature = some feature)
      (kind : feature.kind = .addresses)
      (here : context.function.isSome ≠ context.unicast.isSome)
  | misspecified {feature : Feature View} (chosen : context.feature = some feature)
      (kind : feature.kind = .vlans) (here : context.unicast.isSome = true)
  | overspecified {feature : Feature View} (chosen : context.feature = some feature)
      (kind : feature.kind ∈ [.managers, .promiscuity, .vlanOffload])
      (here : context.function.isSome = true ∨ context.unicast.isSome = true)

variable {context : Context}

theorem refuses_checkChoices_iff {feature : Feature View} :
    Refuses (checkChoices context feature) ↔
      feature.kind = .addresses ∧ context.function.isSome ≠ context.unicast.isSome ∨
        feature.kind = .vlans ∧ context.unicast.isSome = true ∨
        feature.kind ∈ [.managers, .promiscuity, .vlanOffload] ∧
          (context.function.isSome = true ∨ context.unicast.isSome = true) := by
  rw [checkChoices]
  rcases context with ⟨target, chosen, function, unicast⟩
  cases feature.kind with
  | addresses => cases function <;> cases unicast <;> simp [Refuses]
  | vlans => cases unicast <;> simp [Refuses]
  | managers => cases function <;> cases unicast <;> simp [Refuses]
  | promiscuity => cases function <;> cases unicast <;> simp [Refuses]
  | vlanOffload => cases function <;> cases unicast <;> simp [Refuses]

theorem choice_eq :
    choice context = checkedChoice context.target context.feature (checkChoices context)
      "-du/--dump parameter error!" := by
  unfold choice checkedChoice
  cases context.feature with
  | none => rfl
  | some feature => rfl

theorem refuses_choice_iff : Refuses (choice context) ↔ Unfit context := by
  rw [choice_eq, refuses_checkedChoice_iff]
  constructor
  · rintro (here | here | ⟨feature, chosen, refuses⟩)
    · exact .virtual here
    · exact .viewless here
    · rcases refuses_checkChoices_iff.mp refuses with
        ⟨kind, here⟩ | ⟨kind, here⟩ | ⟨kind, here⟩
      · exact .halfSpecified chosen kind here
      · exact .misspecified chosen kind here
      · exact .overspecified chosen kind here
  · intro unfit
    cases unfit with
    | virtual here => exact .inl here
    | viewless here => exact .inr (.inl here)
    | halfSpecified chosen kind here =>
      exact .inr (.inr ⟨_, chosen, refuses_checkChoices_iff.mpr (.inl ⟨kind, here⟩)⟩)
    | misspecified chosen kind here =>
      exact .inr (.inr ⟨_, chosen, refuses_checkChoices_iff.mpr (.inr (.inl ⟨kind, here⟩))⟩)
    | overspecified chosen kind here =>
      exact .inr (.inr ⟨_, chosen, refuses_checkChoices_iff.mpr (.inr (.inr ⟨kind, here⟩))⟩)

end Port

/-! ### Receive-side scaling -/

namespace Scaling

/-- What the options chose cannot be shown: no view was chosen. -/
def Unfit (context : Context) : Prop :=
  context.feature = none

variable {context : Context}

theorem refuses_choice_iff : Refuses (choice context) ↔ Unfit context := by
  rw [choice, Unfit]
  cases context.feature with
  | none => exact iff_of_true ⟨_, rfl⟩ rfl
  | some feature => exact iff_of_false nofun nofun

/-- A choice that is not refused is the view that the options chose. -/
theorem feature_of_choice {feature : Feature View} (chosen : choice context = .ok feature) :
    context.feature = some feature := by
  rw [choice] at chosen
  split at chosen
  next found here =>
    cases chosen
    exact here
  next => cases chosen

end Scaling

/-! ### Commands -/

namespace Command

/-- What the options of a command chose does not go together. -/
inductive Unfit : (command : Command) → command.Context → Prop
  | director {context : Director.Context} (unfit : Director.Unfit context) :
      Unfit directorCommand context
  | port {context : Port.Context} (unfit : Port.Unfit context) : Unfit portCommand context
  | scaling {context : Scaling.Context} (unfit : Scaling.Unfit context) :
      Unfit scalingCommand context

/-- Where the choices do not go together nothing is asked. -/
theorem Unfit.silent {command : Command} {context : command.Context}
    (unfit : command.Unfit context) {requests : List (Query × Reply)}
    {outcome : Except Error Dump} (held : (command.execute context).run.Held requests outcome) :
    requests = [] := by
  cases unfit with
  | director unfit => exact (Director.refuses_choice_iff.mpr unfit).silent held
  | port unfit => exact (Port.refuses_choice_iff.mpr unfit).silent held
  | scaling unfit => exact (Scaling.refuses_choice_iff.mpr unfit).silent held

end Command

end NicScope
