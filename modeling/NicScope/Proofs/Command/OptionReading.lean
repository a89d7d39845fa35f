/-
This file says what it takes for the options of a command to be read to their end: token by
token an option is given that was not given before, with its parameter behind it if it takes
one, and handling it changes the context and does not fail.
-/

import NicScope.Options

namespace NicScope

variable {γ : Type}

theorem OptionAction.of_bind {α β : Type} {action : OptionAction γ α}
    {next : α → OptionAction γ β} {value : β} {context final : γ}
    (ran : (action >>= next).run context = (.ok value, final)) :
    ∃ given middle, action.run context = (.ok given, middle) ∧
      (next given).run middle = (.ok value, final) := by
  change ExceptT.bindCont next (action.run context).1 (action.run context).2 = _ at ran
  rcases first : action.run context with ⟨cause | given, middle⟩
  · rw [first] at ran
    cases ran
  · rw [first] at ran
    exact ⟨given, middle, rfl, ran⟩

namespace OptionRegistry

/-- A token gives an option, the one at this index, which was not given before and does not ask
for help. -/
structure Selects (options : List (CommandOption γ)) (seen : List Nat) (token : String)
    (option : CommandOption γ) (index : Nat) : Prop where
  found : (options.zipIdx.find? fun entry => entry.1.isGivenBy token) = some (option, index)
  fresh : index ∉ seen
  goesOn : option.isHelp = false

/-- Reading tokens leads from one context to another; `seen` has the indices of the options
given before. -/
inductive Accepted (options : List (CommandOption γ)) :
    (seen : List Nat) → List String → γ → γ → Prop
  | finished {seen : List Nat} {context : γ} : Accepted options seen [] context context
  | bare {seen : List Nat} {token : String} {rest : List String} {option : CommandOption γ}
      {index : Nat} {context middle final : γ} (selects : Selects options seen token option index)
      (takesNone : option.takesParameter = false)
      (handled : (option.handle none).run context = (.ok (), middle))
      (later : Accepted options (index :: seen) rest middle final) :
      Accepted options seen (token :: rest) context final
  | valued {seen : List Nat} {token parameter : String} {rest : List String}
      {option : CommandOption γ} {index : Nat} {context middle final : γ}
      (selects : Selects options seen token option index)
      (takes : option.takesParameter = true) (plain : looksLikeOption parameter = false)
      (handled : (option.handle (some parameter)).run context = (.ok (), middle))
      (later : Accepted options (index :: seen) rest middle final) :
      Accepted options seen (token :: parameter :: rest) context final

variable {options : List (CommandOption γ)} {context final : γ}

theorem accepted_of_parseFrom {seen : List Nat} {tokens : List String}
    (read : (parseFrom options seen tokens).run context = (.ok .proceed, final)) :
    Accepted options seen tokens context final := by
  -- What follows on an option is read only if it does not ask for help.
  have goesOn {option : CommandOption γ} {argument : Option String} {rest : List String}
      {index : Nat} {seen : List Nat} {context : γ}
      (read : (do
          option.handle argument
          if option.isHelp = true then return .help
          parseFrom options (index :: seen) rest : OptionAction γ OptionOutcome).run context =
        (.ok .proceed, final)) :
      option.isHelp = false ∧ ∃ middle,
        (option.handle argument).run context = (.ok (), middle) ∧
          (parseFrom options (index :: seen) rest).run middle = (.ok .proceed, final) := by
    obtain ⟨_, middle, handled, later⟩ := OptionAction.of_bind read
    cases help : option.isHelp with
    | true =>
      rw [help, if_pos rfl] at later
      cases later
    | false =>
      rw [help, if_neg Bool.false_ne_true] at later
      exact ⟨rfl, middle, handled, later⟩
  fun_induction parseFrom options seen tokens generalizing context with
  | case1 seen =>
    cases read
    exact .finished
  | case2 | case3 | case4 | case5 => cases read
  | case6 seen token option index found unseen takes parameter rest plain inductionHypothesis =>
    obtain ⟨noHelp, middle, handled, later⟩ := goesOn read
    have fresh : index ∉ seen := fun member => unseen (List.contains_iff_mem.mpr member)
    exact .valued ⟨found, fresh, noHelp⟩ takes (Bool.eq_false_iff.mpr plain) handled
      (inductionHypothesis later)
  | case7 seen token rest option index found unseen bare inductionHypothesis =>
    obtain ⟨noHelp, middle, handled, later⟩ := goesOn read
    have fresh : index ∉ seen := fun member => unseen (List.contains_iff_mem.mpr member)
    exact .bare ⟨found, fresh, noHelp⟩ (Bool.eq_false_iff.mpr bare) handled
      (inductionHypothesis later)

end OptionRegistry

end NicScope
