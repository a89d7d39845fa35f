/-
This file proves that neither the order nor the spelling of options matters. What is given to a
command is a list of choices, each an option with a value, and a choice is spelled by either form
of its option and the value. The options of a command have forms of their own, and each of them
changes a part of the context that no other one changes or looks at. So a spelling is read by
making the changes one after another, and in every order these come to the same; it is refused
exactly if an option is given twice or one of them refuses its value.
-/

import Mathlib.Data.List.Nodup
import NicScope.Proofs.Command.ChosenTarget
import NicScope.Proofs.Command.OptionHandling

namespace NicScope

variable {γ : Type}

/-! ### Choices -/

/-- An option, by its place among the options of a command, and the value given for it. -/
structure OptionChoice where
  index : Nat
  value : String
  deriving DecidableEq, Repr

/-- The context that an option makes of another one; none if it cannot be handled. -/
def CommandOption.give? (option : CommandOption γ) (value : String) (context : γ) : Option γ :=
  match (option.handle (some value)).run context with
  | (.ok _, after) => some after
  | (.error _, _) => none

/-- The context that a choice makes of another one. -/
def OptionChoice.make? (options : List (CommandOption γ)) (choice : OptionChoice) (context : γ) :
    Option γ :=
  options[choice.index]?.bind fun option => option.give? choice.value context

/-- The two forms of an option. -/
def CommandOption.forms (option : CommandOption γ) : List String :=
  [option.short, option.long]

theorem CommandOption.mem_forms_iff {option : CommandOption γ} {form : String} :
    form ∈ option.forms ↔ form = option.short ∨ form = option.long := by
  rw [forms, List.mem_cons, List.mem_singleton]

/-- Two options are handled one after the other with the same end in either order. -/
def CommandOption.Commutes (first second : CommandOption γ) : Prop :=
  ∀ value other context, (first.give? value context).bind (second.give? other) =
    (second.give? other context).bind (first.give? value)

/-- An option refuses a value in all contexts or in none. -/
def CommandOption.Steady (option : CommandOption γ) : Prop :=
  ∀ value context other, (option.give? value context).isSome = (option.give? value other).isSome

namespace OptionRegistry

/-- How choices are spelled, in their order: each by a form of its option, which does not ask for
help, and by its value, which does not look like an option. -/
inductive Spells (options : List (CommandOption γ)) : List OptionChoice → List String → Prop
  | nothing : Spells options [] []
  | choice {choice : OptionChoice} {option : CommandOption γ} {form : String}
      {later : List OptionChoice} {tokens : List String}
      (registered : options[choice.index]? = some option) (noHelp : option.isHelp = false)
      (given : form = option.short ∨ form = option.long)
      (plain : looksLikeOption choice.value = false) (rest : Spells options later tokens) :
      Spells options (choice :: later) (form :: choice.value :: tokens)

/-- Tokens that spell the choices in some order. -/
def Arranges (options : List (CommandOption γ)) (choices : List OptionChoice)
    (tokens : List String) : Prop :=
  ∃ order : List OptionChoice, order.Perm choices ∧ Spells options order tokens

/-- The context that choices make one after another. -/
def makeAll? (options : List (CommandOption γ)) (choices : List OptionChoice)
    (start : Option γ) : Option γ :=
  choices.foldl (fun state choice => state.bind (choice.make? options)) start

theorem makeAll?_none (options : List (CommandOption γ)) (choices : List OptionChoice) :
    makeAll? options choices none = none := by
  induction choices with
  | nil => rfl
  | cons choice later inductionHypothesis => exact inductionHypothesis

/-- No option is chosen twice, nor one that was seen before. -/
def Distinct (seen : List Nat) (choices : List OptionChoice) : Prop :=
  (choices.map OptionChoice.index).Nodup ∧ ∀ choice ∈ choices, choice.index ∉ seen

instance (seen : List Nat) (choices : List OptionChoice) : Decidable (Distinct seen choices) :=
  inferInstanceAs (Decidable (_ ∧ _))

theorem distinct_nil (seen : List Nat) : Distinct seen [] :=
  ⟨List.nodup_nil, fun _ member => absurd member List.not_mem_nil⟩

theorem distinct_cons_iff {seen : List Nat} {choice : OptionChoice} {later : List OptionChoice} :
    Distinct seen (choice :: later) ↔
      choice.index ∉ seen ∧ Distinct (choice.index :: seen) later := by
  rw [Distinct, List.map_cons, List.nodup_cons, List.forall_mem_cons, Distinct]
  constructor
  · rintro ⟨⟨absent, distinct⟩, fresh, others⟩
    refine ⟨fresh, distinct, fun other member =>
      List.not_mem_cons_of_ne_of_not_mem (fun same => ?_) (others other member)⟩
    exact absent (same ▸ List.mem_map_of_mem member)
  · rintro ⟨fresh, distinct, others⟩
    refine ⟨⟨fun again => ?_, distinct⟩, fresh,
      fun other member => List.not_mem_of_not_mem_cons (others other member)⟩
    obtain ⟨other, member, same⟩ := List.mem_map.mp again
    exact List.ne_of_not_mem_cons (others other member) same

/-- No option is given twice, and none refuses its value. -/
def Takable (options : List (CommandOption γ)) (choices : List OptionChoice) (context : γ) :
    Prop :=
  Distinct [] choices ∧ ∀ choice ∈ choices, (choice.make? options context).isSome

/-- The context that choices come to, if no option is given twice. -/
def settled? (options : List (CommandOption γ)) (seen : List Nat) (choices : List OptionChoice)
    (context : γ) : Option γ :=
  if Distinct seen choices then makeAll? options choices (some context) else none

section

variable {options : List (CommandOption γ)} {seen : List Nat} {choice : OptionChoice}

theorem settled?_nil (context : γ) : settled? options seen [] context = some context :=
  if_pos (distinct_nil seen)

theorem settled?_of_mem (later : List OptionChoice) (context : γ)
    (again : choice.index ∈ seen) : settled? options seen (choice :: later) context = none :=
  if_neg fun distinct => distinct.2 choice List.mem_cons_self again

theorem settled?_cons (later : List OptionChoice) (context : γ) (fresh : choice.index ∉ seen) :
    settled? options seen (choice :: later) context =
      (choice.make? options context).bind
        (settled? options (choice.index :: seen) later) := by
  have same : Distinct seen (choice :: later) ↔ Distinct (choice.index :: seen) later :=
    distinct_cons_iff.trans (and_iff_right fresh)
  rw [settled?, makeAll?, List.foldl_cons, Option.bind_some, ← makeAll?]
  cases choice.make? options context with
  | none => rw [makeAll?_none, ite_self, Option.bind_none]
  | some after => simp only [same, Option.bind_some, settled?]

end

/-! ### Independent options -/

/-- Options with forms of their own, of which all that do not ask for help take a parameter, and
which may be handled in any order and in any context. -/
structure Independent (options : List (CommandOption γ)) : Prop where
  forms : (options.map CommandOption.forms).Pairwise fun first second =>
    ∀ form ∈ second, form ∉ first
  takes : ∀ option ∈ options, option.isHelp = false → option.takesParameter = true
  steady : ∀ option ∈ options, option.Steady
  commutes : options.Pairwise CommandOption.Commutes

/-- Reading ends with a context, or is refused. -/
def EndsAs (ran : Except Error OptionOutcome × γ) : Option γ → Prop
  | some final => ran = (.ok .proceed, final)
  | none => ∃ cause, ran.1 = .error cause

namespace Independent

variable {options : List (CommandOption γ)}

/-- A form of an option gives this option. -/
theorem gives (independent : Independent options) {index : Nat} {option : CommandOption γ}
    {form : String} (registered : options[index]? = some option)
    (given : form = option.short ∨ form = option.long) : Gives options form option index := by
  refine ⟨registered, given, fun earlier less other found => ?_⟩
  obtain ⟨inside, rfl⟩ := List.getElem?_eq_some_iff.mp registered
  obtain ⟨before, rfl⟩ := List.getElem?_eq_some_iff.mp found
  have disjoint := List.pairwise_iff_getElem.mp (List.pairwise_map.mp independent.forms) earlier
    index before inside less form (CommandOption.mem_forms_iff.mpr given)
  rwa [CommandOption.mem_forms_iff, not_or] at disjoint

/-- Choices of different options are made with the same end in either order. -/
theorem make?_comm (independent : Independent options) {first second : OptionChoice}
    (different : first.index ≠ second.index) (context : γ) :
    (first.make? options context).bind (second.make? options) =
      (second.make? options context).bind (first.make? options) := by
  unfold OptionChoice.make?
  cases one : options[first.index]? with
  | none => simp only [Option.bind_none, Option.bind_fun_none]
  | some option =>
    cases two : options[second.index]? with
    | none => simp only [Option.bind_none, Option.bind_fun_none]
    | some other =>
      obtain ⟨inside, rfl⟩ := List.getElem?_eq_some_iff.mp one
      obtain ⟨also, rfl⟩ := List.getElem?_eq_some_iff.mp two
      have ordered := List.pairwise_iff_getElem.mp independent.commutes
      rcases Nat.lt_or_gt_of_ne different with less | greater
      · exact ordered _ _ inside also less _ _ context
      · exact (ordered _ _ also inside greater _ _ context).symm

/-- A choice is refused in all contexts or in none. -/
theorem isSome_make? (independent : Independent options) (choice : OptionChoice)
    (context other : γ) :
    (choice.make? options context).isSome = (choice.make? options other).isSome := by
  unfold OptionChoice.make?
  cases registered : options[choice.index]? with
  | none => rfl
  | some option =>
    exact independent.steady option (List.mem_of_getElem? registered) choice.value context other

/-- Choices come to a context exactly if no option is given twice and none refuses its value. -/
theorem isSome_settled?_iff (independent : Independent options) (seen : List Nat)
    (choices : List OptionChoice) (context : γ) :
    (settled? options seen choices context).isSome ↔
      Distinct seen choices ∧ ∀ choice ∈ choices, (choice.make? options context).isSome := by
  induction choices generalizing seen context with
  | nil =>
    rw [settled?_nil]
    exact iff_of_true rfl ⟨distinct_nil seen, fun _ member => absurd member List.not_mem_nil⟩
  | cons choice later inductionHypothesis =>
    rw [distinct_cons_iff, List.forall_mem_cons]
    by_cases again : choice.index ∈ seen
    · rw [settled?_of_mem later context again]
      exact iff_of_false Bool.false_ne_true fun both => both.1.1 again
    · rw [settled?_cons later context again]
      cases made : choice.make? options context with
      | none => exact iff_of_false Bool.false_ne_true fun both => Bool.false_ne_true both.2.1
      | some after =>
        rw [Option.bind_some, inductionHypothesis]
        simp only [again, independent.isSome_make? _ after context, not_false_eq_true, true_and,
          Option.isSome_some]

/-- A spelling of choices is read to the context that they come to, or refused. -/
theorem endsAs_settled (independent : Independent options) {choices : List OptionChoice}
    {tokens : List String} (spells : Spells options choices tokens) (seen : List Nat)
    (context : γ) :
    EndsAs ((parseFrom options seen tokens).run context)
      (settled? options seen choices context) := by
  induction spells generalizing seen context with
  | nothing =>
    rw [settled?_nil]
    rfl
  | @choice choice option form later tokens registered noHelp given plain rest
      inductionHypothesis =>
    have gives := independent.gives registered given
    by_cases again : choice.index ∈ seen
    · rw [settled?_of_mem later context again, parseFrom_of_reads (.repeated gives again)]
      exact ⟨_, rfl⟩
    · have takesOne := independent.takes option (List.mem_of_getElem? registered) noHelp
      have takes (result : Except Error Unit) : Takes options seen
          (form :: choice.value :: tokens)
          ⟨form, option, choice.index, some choice.value, result⟩ tokens :=
        ⟨gives, again, rfl, takesOne.symm, fun _ same => by cases same; exact plain⟩
      have ran : (parseFrom options seen (form :: choice.value :: tokens)).run context = _ :=
        run_parseFrom_of_takes (takes ((option.handle (some choice.value)).run context).1) rfl
      rw [settled?_cons later context again, ran, OptionChoice.make?, registered,
        Option.bind_some, CommandOption.give?, noHelp]
      rcases handled : (option.handle (some choice.value)).run context with ⟨cause | _, after⟩
      · exact ⟨cause, rfl⟩
      · change EndsAs ((parseFrom options (choice.index :: seen) tokens).run
          ((option.handle (some choice.value)).run context).2) _
        rw [handled]
        exact inductionHypothesis (choice.index :: seen) after

/-! ### Orders -/

/-- In which order choices are made does not matter to what they come to. -/
theorem settled?_perm (independent : Independent options) {order choices : List OptionChoice}
    (perm : order.Perm choices) (context : γ) :
    settled? options [] order context = settled? options [] choices context := by
  have indices := perm.map OptionChoice.index
  have same : Distinct [] order ↔ Distinct [] choices :=
    and_congr indices.nodup_iff (by simp)
  by_cases distinct : Distinct [] order
  · rw [settled?, if_pos distinct, settled?, if_pos (same.mp distinct)]
    refine perm.foldl_eq' (fun first one second two state => ?_) _
    cases state with
    | none => rfl
    | some context =>
      by_cases equal : first = second
      · rw [equal]
      · exact independent.make?_comm (fun index =>
          equal (List.inj_on_of_nodup_map distinct.1 one two index)) context
  · rw [settled?, if_neg distinct, settled?, if_neg fun also => distinct (same.mpr also)]

/-- Choices that can be taken are read to one context, however they are arranged; others are
refused. -/
theorem reads_arranged (independent : Independent options) (choices : List OptionChoice)
    (context : γ) :
    (Takable options choices context ∧ ∃ final, ∀ tokens, Arranges options choices tokens →
      (parseFrom options [] tokens).run context = (.ok .proceed, final)) ∨
    (¬ Takable options choices context ∧ ∀ tokens, Arranges options choices tokens →
      ∃ cause, ((parseFrom options [] tokens).run context).1 = .error cause) := by
  have ends {tokens : List String} (arranges : Arranges options choices tokens) :
      EndsAs ((parseFrom options [] tokens).run context)
        (settled? options [] choices context) := by
    obtain ⟨order, perm, spells⟩ := arranges
    rw [← independent.settled?_perm perm]
    exact independent.endsAs_settled spells [] context
  have takable := independent.isSome_settled?_iff [] choices context
  cases result : settled? options [] choices context with
  | some final =>
    rw [result] at takable
    refine .inl ⟨takable.mp rfl, final, fun tokens arranges => ?_⟩
    have proceeds := ends arranges
    rwa [result] at proceeds
  | none =>
    rw [result] at takable
    refine .inr ⟨fun taken => Bool.false_ne_true (takable.mpr taken), fun tokens arranges => ?_⟩
    have fails := ends arranges
    rwa [result] at fails

end Independent

end OptionRegistry

/-! ### Handlers -/

section Handlers

variable {ι κ : Type} {place : ι → γ → γ}

namespace OptionAction

/-- An action that does not look at the context: it puts something in its place there, or it
fails with one cause in all contexts. -/
def Sets (place : ι → γ → γ) (action : OptionAction γ Unit) : Prop :=
  (∃ found, action = modify (place found)) ∨ ∃ cause, action = throw cause

protected theorem Sets.modify (found : ι) : Sets place (modify (place found)) :=
  .inl ⟨found, rfl⟩

protected theorem Sets.throw (cause : Error) : Sets place (throw cause) :=
  .inr ⟨cause, rfl⟩

theorem Sets.ofExcept {α : Type} {result : Except Error α} {next : α → OptionAction γ Unit}
    (sets : ∀ given, Sets place (next given)) :
    Sets place (liftM result >>= next) := by
  cases result with
  | ok given => exact sets given
  | error cause => exact .throw cause

theorem Sets.unless {condition : Prop} [Decidable condition] {cause : Error}
    {action : OptionAction γ Unit} (sets : action.Sets place) :
    Sets place (do
      if condition then throw cause
      action) := by
  split
  · exact .throw cause
  · exact sets

end OptionAction

/-- An option that puts what it makes of its value in a place of the context, or refuses the value
in every context. -/
def CommandOption.Places (place : ι → γ → γ) (option : CommandOption γ) : Prop :=
  ∀ value, (option.handle (some value)).Sets place

theorem Interface.places {files : FileTree} {systemRoot : String} {place : Target → γ → γ} :
    (option files systemRoot place).Places place := by
  intro value
  rw [Interface.option]
  dsimp only
  split
  next target _ => exact .modify target
  next cause _ => exact .throw cause

/-- Options that put things in places of their own are handled in any order. -/
theorem CommandOption.Places.commutes {first second : CommandOption γ} {other : κ → γ → γ}
    (one : first.Places place) (two : second.Places other)
    (apart : ∀ found given context,
      other given (place found context) = place found (other given context)) :
    first.Commutes second := by
  intro value text context
  unfold give?
  rcases one value with ⟨found, makes⟩ | ⟨cause, fails⟩
  · rcases two text with ⟨given, changes⟩ | ⟨reason, refuses⟩
    · rw [makes, changes]
      exact congrArg some (apart found given context)
    · rw [makes, refuses]
      rfl
  · rcases two text with ⟨given, changes⟩ | ⟨reason, refuses⟩
    · rw [fails, changes]
      rfl
    · rw [fails, refuses]
      rfl

theorem CommandOption.Places.steady {option : CommandOption γ} (places : option.Places place) :
    option.Steady := by
  intro value context other
  unfold give?
  rcases places value with ⟨found, makes⟩ | ⟨cause, fails⟩
  · rw [makes]
    rfl
  · rw [fails]
    rfl

/-- Asking for help leaves every context as it is. -/
theorem CommandOption.commutes_help (option : CommandOption γ) :
    help.Commutes option := by
  intro value text context
  change option.give? text context = (option.give? text context).bind some
  exact (Option.bind_fun_some _).symm

end Handlers

/-! ### The commands -/

section Commands

variable {files : FileTree} {systemRoot : String}

/-- The options of a command that is about a device function are independent if the others are, of
each other and of the one that names the target. -/
theorem Interface.independent {place : Target → γ → γ} {others : List (CommandOption γ)}
    (forms : (["-h", "--help"] :: Interface.forms :: others.map CommandOption.forms).Pairwise
      fun first second => ∀ form ∈ second, form ∉ first)
    (takes : ∀ option ∈ others, option.takesParameter = true)
    (steady : ∀ option ∈ others, option.Steady)
    (commutes : (Interface.option files systemRoot place :: others).Pairwise
      CommandOption.Commutes) :
    OptionRegistry.Independent (Interface.options files systemRoot place others) where
  forms := forms
  takes := by
    rw [List.forall_mem_cons, List.forall_mem_cons]
    exact ⟨fun noHelp => absurd noHelp.symm Bool.false_ne_true, fun _ => rfl,
      fun option member _ => takes option member⟩
  steady := by
    rw [List.forall_mem_cons, List.forall_mem_cons]
    exact ⟨fun _ _ _ => rfl, Interface.places.steady, steady⟩
  commutes := List.pairwise_cons.mpr ⟨fun option _ => option.commutes_help, commutes⟩

namespace Port

theorem independent : OptionRegistry.Independent (options files systemRoot) := by
  have target : CommandOption.Places
      (fun target (context : Context) => { context with target })
      (Interface.option files systemRoot fun target context => { context with target }) :=
    Interface.places
  have view : CommandOption.Places
      (fun found (context : Context) => { context with feature := found })
      ⟨"-du", "--dump", true, chooseView⟩ :=
    fun _ => .ofExcept fun feature => .modify (some feature)
  have function : CommandOption.Places
      (fun found (context : Context) => { context with function := found })
      ⟨"-func", "--func_id", true, chooseFunction⟩ :=
    fun _ => .ofExcept fun number => .unless (.modify (some number.toUInt16))
  have unicast : CommandOption.Places
      (fun found (context : Context) => { context with unicast := found })
      ⟨"-uc", "--unicast", true, chooseUnicast⟩ :=
    fun _ => .ofExcept fun number => .unless (.modify (some (number == 1)))
  refine Interface.independent (by decide) (by simp) ?_ ?_
  · simp only [List.forall_mem_cons, List.not_mem_nil, false_implies, implies_true, and_true]
    exact ⟨view.steady, function.steady, unicast.steady⟩
  · simp only [List.pairwise_cons, List.forall_mem_cons, List.not_mem_nil, false_implies,
      implies_true, and_true, List.Pairwise.nil]
    exact ⟨⟨target.commutes view fun _ _ _ => rfl, target.commutes function fun _ _ _ => rfl,
        target.commutes unicast fun _ _ _ => rfl⟩,
      ⟨view.commutes function fun _ _ _ => rfl, view.commutes unicast fun _ _ _ => rfl⟩,
      function.commutes unicast fun _ _ _ => rfl⟩

end Port

namespace Director

theorem independent : OptionRegistry.Independent (options files systemRoot) := by
  have target : CommandOption.Places
      (fun target (context : Context) => { context with target })
      (Interface.option files systemRoot fun target context => { context with target }) :=
    Interface.places
  have view : CommandOption.Places
      (fun found (context : Context) => { context with feature := found })
      ⟨"-du", "--dump", true, chooseView⟩ :=
    fun _ => .ofExcept fun feature => .modify (some feature)
  have index : CommandOption.Places
      (fun found (context : Context) => { context with index := found })
      ⟨"-id", "--index", true, chooseIndex⟩ :=
    fun _ => .ofExcept fun number => .unless (.modify (some number.toUInt16))
  have stage : CommandOption.Places
      (fun found (context : Context) => { context with stage := found })
      ⟨"-st", "--stage", true, chooseStage⟩ := by
    refine fun _ => .ofExcept fun number => ?_
    split
    · exact .modify (some 0)
    · exact .throw _
    · exact .throw _
  refine Interface.independent (by decide) (by simp) ?_ ?_
  · simp only [List.forall_mem_cons, List.not_mem_nil, false_implies, implies_true, and_true]
    exact ⟨view.steady, index.steady, stage.steady⟩
  · simp only [List.pairwise_cons, List.forall_mem_cons, List.not_mem_nil, false_implies,
      implies_true, and_true, List.Pairwise.nil]
    exact ⟨⟨target.commutes view fun _ _ _ => rfl, target.commutes index fun _ _ _ => rfl,
        target.commutes stage fun _ _ _ => rfl⟩,
      ⟨view.commutes index fun _ _ _ => rfl, view.commutes stage fun _ _ _ => rfl⟩,
      index.commutes stage fun _ _ _ => rfl⟩

end Director

namespace Scaling

theorem independent : OptionRegistry.Independent (options files systemRoot) := by
  have target : CommandOption.Places
      (fun target (context : Context) => { context with target })
      (Interface.option files systemRoot fun target context => { context with target }) :=
    Interface.places
  have view : CommandOption.Places
      (fun found (context : Context) => { context with feature := found })
      ⟨"-g", "--get", true, chooseView⟩ :=
    fun _ => .ofExcept fun feature => .modify (some feature)
  refine Interface.independent (by decide) (by simp) (List.forall_mem_singleton.mpr view.steady)
    (List.pairwise_pair.mpr ?_)
  exact target.commutes view fun _ _ _ => rfl

end Scaling

/-- The options of every command are all registered, and they are independent. -/
theorem Command.independent_of_mem {command : Command} (known : command ∈ Tool.commands) :
    (OptionRegistry.empty.registerAll (command.options files systemRoot)).options =
        command.options files systemRoot ∧
      OptionRegistry.Independent (command.options files systemRoot) := by
  simp only [Tool.commands, List.mem_cons, List.not_mem_nil, or_false] at known
  rcases known with rfl | rfl | rfl
  · exact ⟨rfl, Director.independent⟩
  · exact ⟨rfl, Port.independent⟩
  · exact ⟨rfl, Scaling.independent⟩

end Commands

end NicScope
