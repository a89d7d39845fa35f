/-
This file says which target a command is about once its options are read. The options of a
command that is about a device function begin with the one for help and the one that names the
target; no other option touches the target. So the target is the one that the name behind the
one option of that kind is resolved to, and where there is no such option it stays the one that
the command begins with.
-/

import NicScope.Proofs.Command.OptionReading
import NicScope.Tool

namespace NicScope

open OptionRegistry

variable {γ : Type} {files : FileTree} {systemRoot : String}

/-! ### Actions that leave the target alone -/

namespace OptionAction

variable {α β : Type} {target : γ → Target}

/-- An action that leaves the target alone unless it fails. -/
def Leaves (target : γ → Target) (action : OptionAction γ α) : Prop :=
  ∀ ⦃context value middle⦄, action.run context = (.ok value, middle) →
    target middle = target context

protected theorem Leaves.pure (value : α) : Leaves target (pure value : OptionAction γ α) := by
  intro context _ middle ran
  cases ran
  rfl

protected theorem Leaves.throw (cause : Error) :
    Leaves target (throw cause : OptionAction γ α) := by
  intro context _ middle ran
  cases ran

theorem Leaves.modify {change : γ → γ}
    (keeps : ∀ context, target (change context) = target context) :
    Leaves target (modify change : OptionAction γ Unit) := by
  intro context _ middle ran
  cases ran
  exact keeps context

theorem Leaves.lift (result : Except Error α) :
    Leaves target (liftM result : OptionAction γ α) := by
  intro context _ middle ran
  cases result with
  | ok value =>
    cases ran
    rfl
  | error cause => cases ran

protected theorem Leaves.bind {action : OptionAction γ α} {next : α → OptionAction γ β}
    (first : action.Leaves target) (second : ∀ given, (next given).Leaves target) :
    (action >>= next).Leaves target := by
  intro context value final ran
  obtain ⟨given, middle, one, other⟩ := of_bind ran
  exact (second given other).trans (first one)

/-- A check in front of an action only refuses. -/
theorem Leaves.unless {condition : Prop} [Decidable condition] {cause : Error}
    {action : OptionAction γ Unit} (leaves : action.Leaves target) :
    Leaves target (do
      if condition then throw cause
      action) := by
  split
  · exact .bind (.throw cause) fun _ => leaves
  · exact leaves

end OptionAction

namespace Interface

/-- The forms of the option that names the target. -/
def forms : List String := ["-i", "--interface"]

/-- How the target is chosen by tokens: by the only one among them that is a form of the option,
with the name behind it, or not at all. -/
inductive Chooses (files : FileTree) (systemRoot : String) (start : Target) :
    List String → Target → Prop
  | named {before after : List String} {form name : String} {target : Target}
      (option : form ∈ forms) (only : ∀ token ∈ before ++ name :: after, token ∉ forms)
      (resolved : Target.resolve files systemRoot name = .ok target) :
      Chooses files systemRoot start (before ++ form :: name :: after) target
  | unnamed {tokens : List String} (absent : ∀ token ∈ tokens, token ∉ forms) :
      Chooses files systemRoot start tokens start

/-- Nothing is chosen by tokens in front that are no forms of the option. -/
theorem Chooses.behind {start target : Target} {tokens : List String}
    (chooses : Chooses files systemRoot start tokens target) (words : List String)
    (plain : ∀ word ∈ words, word ∉ forms) :
    Chooses files systemRoot start (words ++ tokens) target := by
  cases chooses with
  | @named before after form name _ option only resolved =>
    rw [← List.append_assoc]
    refine .named option ?_ resolved
    intro token member
    rw [List.append_assoc, List.mem_append] at member
    exact member.elim (plain token) (only token)
  | unnamed absent =>
    exact .unnamed fun token member => (List.mem_append.mp member).elim (plain token) (absent token)

/-- Tokens choose one target only. -/
theorem Chooses.unique {start target other : Target} {tokens : List String}
    (chooses : Chooses files systemRoot start tokens target)
    (also : Chooses files systemRoot start tokens other) : target = other := by
  -- The search for a form passes over what stands in front of it.
  have found {before after : List String} {form name : String}
      (only : ∀ token ∈ before ++ name :: after, token ∉ forms) (option : form ∈ forms) :
      (before ++ form :: name :: after).dropWhile (fun token => token ∉ forms) =
        form :: name :: after := by
    rw [List.dropWhile_append_of_pos fun token member => by
      simpa using only token (List.mem_append_left _ member)]
    rw [List.dropWhile_cons_of_neg (by simpa using option)]
  generalize spelled : tokens = words at also
  cases chooses with
  | named option only resolved =>
    cases also with
    | named option' only' resolved' =>
      have same := congrArg (List.dropWhile fun token => token ∉ forms) spelled
      rw [found only option, found only' option'] at same
      obtain ⟨rfl, _⟩ := List.cons.inj (List.cons.inj same).2
      exact Except.ok.inj (resolved.symm.trans resolved')
    | unnamed absent =>
      subst spelled
      exact absurd option (absent _ (List.mem_append_right _ List.mem_cons_self))
  | unnamed absent =>
    cases also with
    | named option =>
      subst spelled
      exact absurd option (absent _ (List.mem_append_right _ List.mem_cons_self))
    | unnamed => rfl

/-- An option that leaves the target alone. -/
def Keeps (target : γ → Target) (option : CommandOption γ) : Prop :=
  ∀ argument, (option.handle argument).Leaves target

theorem plain_not_mem_forms {parameter : String} (plain : looksLikeOption parameter = false) :
    parameter ∉ forms := by
  intro member
  simp only [forms, List.mem_cons, List.not_mem_nil, or_false] at member
  rcases member with rfl | rfl <;> exact absurd plain (by decide)

/-! ### Options -/

section Options

variable {place : Target → γ → γ} {target : γ → Target} {others : List (CommandOption γ)}

/-- The options of a command that is about a device function. -/
abbrev options (files : FileTree) (systemRoot : String) (place : Target → γ → γ)
    (others : List (CommandOption γ)) : List (CommandOption γ) :=
  .help :: option files systemRoot place :: others

variable {seen : List Nat} {token : String} {selected : CommandOption γ} {index : Nat}

/-- A form of the option gives the option. -/
theorem option_of_form (form : token ∈ forms)
    (selects : Selects (options files systemRoot place others) seen token selected index) :
    selected = option files systemRoot place ∧ index = 1 := by
  have noHelp : (CommandOption.help : CommandOption γ).isGivenBy token = false := by
    simp only [forms, List.mem_cons, List.not_mem_nil, or_false] at form
    rcases form with rfl | rfl <;> rfl
  have given : (option files systemRoot place).isGivenBy token = true := by
    simpa [CommandOption.isGivenBy, option, forms] using form
  have found := selects.found
  rw [options, List.zipIdx_cons, List.find?_cons_of_neg (by simp [noHelp]), List.zipIdx_cons,
    List.find?_cons_of_pos (by simpa using given)] at found
  cases found
  exact ⟨rfl, rfl⟩

/-- What is no form of the option gives another option, which leaves the target alone. -/
theorem keeps_of_no_form (keeps : ∀ option ∈ others, Keeps target option) (form : token ∉ forms)
    (selects : Selects (options files systemRoot place others) seen token selected index) :
    Keeps target selected := by
  have given := List.find?_some selects.found
  have member := List.mem_of_find?_eq_some selects.found
  rw [options, List.zipIdx_cons, List.zipIdx_cons, List.mem_cons, List.mem_cons] at member
  rcases member with help | named | other
  · cases help
    exact fun _ => .pure ()
  · cases named
    exact absurd (by simpa [CommandOption.isGivenBy, option, forms] using given) form
  · exact keeps selected (List.fst_mem_of_mem_zipIdx other)

/-! ### Reading the options -/

variable {tokens : List String} {context final : γ}

/-- Behind the option its forms do not occur again, and the target stays. -/
theorem absent_of_accepted (keeps : ∀ option ∈ others, Keeps target option)
    (accepted : Accepted (options files systemRoot place others) seen tokens context final)
    (given : 1 ∈ seen) : (∀ token ∈ tokens, token ∉ forms) ∧ target final = target context := by
  -- Giving the option once more would be giving the one at its index once more.
  have another {seen : List Nat} {token : String} {selected : CommandOption γ} {index : Nat}
      (selects : Selects (options files systemRoot place others) seen token selected index)
      (given : 1 ∈ seen) : token ∉ forms := by
    intro form
    obtain ⟨_, rfl⟩ := option_of_form form selects
    exact selects.fresh given
  induction accepted with
  | finished => exact ⟨fun _ member => absurd member List.not_mem_nil, rfl⟩
  | bare selects takesNone handled later inductionHypothesis =>
    have form := another selects given
    obtain ⟨absent, same⟩ := inductionHypothesis (List.mem_cons_of_mem _ given)
    exact ⟨List.forall_mem_cons.mpr ⟨form, absent⟩,
      same.trans (keeps_of_no_form keeps form selects _ handled)⟩
  | valued selects takes plain handled later inductionHypothesis =>
    have form := another selects given
    obtain ⟨absent, same⟩ := inductionHypothesis (List.mem_cons_of_mem _ given)
    exact ⟨List.forall_mem_cons.mpr ⟨form, List.forall_mem_cons.mpr
        ⟨plain_not_mem_forms plain, absent⟩⟩,
      same.trans (keeps_of_no_form keeps form selects _ handled)⟩

/-- A name that the option takes has been resolved. -/
theorem resolve_of_handled {parameter : String} {middle : γ}
    (handled : ((option files systemRoot place).handle (some parameter)).run context =
      (.ok (), middle)) :
    ∃ given, Target.resolve files systemRoot parameter = .ok given ∧
      middle = place given context := by
  rw [option] at handled
  dsimp only at handled
  split at handled
  next given resolved =>
    cases handled
    exact ⟨given, resolved, rfl⟩
  next cause _ => cases handled

/-- The target is chosen by the tokens. -/
theorem chooses_of_accepted (keeps : ∀ option ∈ others, Keeps target option)
    (places : ∀ given context, target (place given context) = given)
    (accepted : Accepted (options files systemRoot place others) seen tokens context final) :
    Chooses files systemRoot (target context) tokens (target final) := by
  induction accepted with
  | finished => exact .unnamed fun _ member => absurd member List.not_mem_nil
  | @bare seen token rest selected index context middle final selects takesNone handled later
      inductionHypothesis =>
    by_cases form : token ∈ forms
    · obtain ⟨rfl, rfl⟩ := option_of_form form selects
      cases takesNone
    · rw [keeps_of_no_form keeps form selects _ handled] at inductionHypothesis
      exact inductionHypothesis.behind [token] (by simpa using form)
  | @valued seen token parameter rest selected index context middle final selects takes plain
      handled later inductionHypothesis =>
    have value := plain_not_mem_forms plain
    by_cases form : token ∈ forms
    · obtain ⟨rfl, rfl⟩ := option_of_form form selects
      obtain ⟨given, resolved, rfl⟩ := resolve_of_handled handled
      obtain ⟨absent, same⟩ := absent_of_accepted keeps later List.mem_cons_self
      rw [same, places]
      change Chooses files systemRoot (target context) ([] ++ token :: parameter :: rest) given
      exact .named form (List.forall_mem_cons.mpr ⟨value, absent⟩) resolved
    · rw [keeps_of_no_form keeps form selects _ handled] at inductionHypothesis
      exact inductionHypothesis.behind [token, parameter] (by simpa using ⟨form, value⟩)

/-- The target that a command is about once its options are read is chosen by the tokens. -/
theorem chooses_of_parse {registry : OptionRegistry γ}
    (registered : registry.options = options files systemRoot place others)
    (keeps : ∀ option ∈ others, Keeps target option)
    (places : ∀ given context, target (place given context) = given)
    (parsed : (registry.parse tokens).run context = (.ok .proceed, final)) :
    Chooses files systemRoot (target context) tokens (target final) := by
  rw [OptionRegistry.parse, registered] at parsed
  exact chooses_of_accepted keeps places (accepted_of_parseFrom parsed)

end Options

end Interface

/-! ### The commands -/

section Commands

variable {settings : Settings} {tokens : List String}

namespace Port

theorem keeps_others : ∀ option ∈ [⟨"-du", "--dump", true, chooseView⟩,
      ⟨"-func", "--func_id", true, chooseFunction⟩, ⟨"-uc", "--unicast", true, chooseUnicast⟩],
    Interface.Keeps Context.target option := by
  simp only [List.forall_mem_cons, List.not_mem_nil, false_implies, implies_true, and_true]
  refine ⟨fun argument => ?_, fun argument => ?_, fun argument => ?_⟩
  · exact .bind (.lift _) fun _ => .modify fun _ => rfl
  · exact .bind (.lift _) fun _ => .unless (.modify fun _ => rfl)
  · exact .bind (.lift _) fun _ => .unless (.modify fun _ => rfl)

theorem chooses_of_parse {context : Context}
    (parsed : portCommand.parse settings files tokens = (.ok .proceed, context)) :
    Interface.Chooses files settings.systemRoot .unset tokens context.target :=
  Interface.chooses_of_parse rfl keeps_others (fun _ _ => rfl) parsed

end Port

namespace Director

theorem keeps_others : ∀ option ∈ [⟨"-du", "--dump", true, chooseView⟩,
      ⟨"-id", "--index", true, chooseIndex⟩, ⟨"-st", "--stage", true, chooseStage⟩],
    Interface.Keeps Context.target option := by
  simp only [List.forall_mem_cons, List.not_mem_nil, false_implies, implies_true, and_true]
  refine ⟨fun argument => ?_, fun argument => ?_, fun argument => ?_⟩
  · exact .bind (.lift _) fun _ => .modify fun _ => rfl
  · exact .bind (.lift _) fun _ => .unless (.modify fun _ => rfl)
  · refine .bind (.lift _) fun value => ?_
    split
    · exact .modify fun _ => rfl
    · exact .throw _
    · exact .throw _

theorem chooses_of_parse {context : Context}
    (parsed : directorCommand.parse settings files tokens = (.ok .proceed, context)) :
    Interface.Chooses files settings.systemRoot .unset tokens context.target :=
  Interface.chooses_of_parse rfl keeps_others (fun _ _ => rfl) parsed

end Director

namespace Scaling

theorem keeps_others : ∀ option ∈ [⟨"-g", "--get", true, chooseView⟩],
    Interface.Keeps Context.target option := by
  simp only [List.forall_mem_cons, List.not_mem_nil, false_implies, implies_true, and_true]
  exact fun argument => .bind (.lift _) fun _ => .modify fun _ => rfl

theorem chooses_of_parse {context : Context}
    (parsed : scalingCommand.parse settings files tokens = (.ok .proceed, context)) :
    Interface.Chooses files settings.systemRoot .unset tokens context.target :=
  Interface.chooses_of_parse rfl keeps_others (fun _ _ => rfl) parsed

end Scaling

end Commands

end NicScope
