/-
This file proves how the options of a command are read, token by token from the left. There are
seven rules. A reading ends where no token is left, where a token gives no option, gives one that
was given before or lacks its parameter, and behind an option that cannot be handled or asks for
help; behind any other option it goes on. Reading by these rules is what the registry does with
every list of tokens. Each option is handled at most once, and whatever a reading ends with, the
context is what handling these options has made of it.
-/

import NicScope.Proofs.Command.OptionReading

namespace NicScope

variable {γ : Type}

/-- What follows on an action is done in the context that it leaves, unless it fails. -/
theorem OptionAction.run_bind {α β : Type} (action : OptionAction γ α)
    (next : α → OptionAction γ β) (context : γ) :
    (action >>= next).run context =
      match (action.run context).1 with
      | .ok given => (next given).run (action.run context).2
      | .error cause => (.error cause, (action.run context).2) := by
  change ExceptT.bindCont next (action.run context).1 (action.run context).2 = _
  cases (action.run context).1 with
  | ok given => rfl
  | error cause => rfl

/-! ### Registering -/

/-- Whether an option has a form that is not empty. -/
def CommandOption.hasForm (option : CommandOption γ) : Bool :=
  option.short ≠ "" || option.long ≠ ""

namespace OptionRegistry

theorem options_register_of_hasForm {registry : OptionRegistry γ} {option : CommandOption γ}
    (form : option.hasForm = true) :
    (registry.register option).options =
      if registry.options.length < maxOptions then registry.options ++ [option]
      else registry.options := by
  have given : (option.short.isEmpty && option.long.isEmpty) = false := by
    simpa [CommandOption.hasForm, Decidable.imp_iff_not_or] using form
  rw [register, given, if_neg Bool.false_ne_true]
  split
  next full => rw [if_neg (Nat.not_lt.mpr full)]
  next free => rw [if_pos (Nat.not_le.mp free)]

theorem options_register_of_no_form {registry : OptionRegistry γ} {option : CommandOption γ}
    (form : option.hasForm = false) : (registry.register option).options = registry.options := by
  have empty : (option.short.isEmpty && option.long.isEmpty) = true := by
    simpa [CommandOption.hasForm] using form
  rw [register, if_pos empty]

/-- Options with a form are put behind the others, as long as there is room. -/
theorem options_registerAll (calls : List (CommandOption γ)) (registry : OptionRegistry γ) :
    (registry.registerAll calls).options =
      registry.options ++
        (calls.filter CommandOption.hasForm).take (maxOptions - registry.options.length) := by
  induction calls generalizing registry with
  | nil => simp [registerAll]
  | cons option rest inductionHypothesis =>
    have step : registry.registerAll (option :: rest) =
        (registry.register option).registerAll rest := rfl
    rw [step, inductionHypothesis]
    cases form : option.hasForm with
    | false =>
      rw [options_register_of_no_form form, List.filter_cons_of_neg (by simp [form])]
    | true =>
      rw [options_register_of_hasForm form, List.filter_cons_of_pos form]
      split
      next free =>
        obtain ⟨left, room⟩ := Nat.exists_eq_add_of_lt free
        have before : maxOptions - registry.options.length = left + 1 := by omega
        have behind : maxOptions - (registry.options.length + 1) = left := by omega
        rw [List.length_append, List.length_singleton, before, behind, List.take_succ_cons,
          List.append_assoc, List.singleton_append]
      next full =>
        rw [Nat.sub_eq_zero_of_le (Nat.not_lt.mp full), List.take_zero, List.take_zero]

/-! ### Rules -/

/-- A token gives the option at this index, the first of the options that has it as a form. -/
structure Gives (options : List (CommandOption γ)) (token : String) (option : CommandOption γ)
    (index : Nat) : Prop where
  registered : options[index]? = some option
  form : token = option.short ∨ token = option.long
  first : ∀ earlier < index, ∀ other, options[earlier]? = some other →
    token ≠ other.short ∧ token ≠ other.long

/-- An option that is handled: the token that gives it, its place among the options, its
parameter and what handling it comes to. -/
structure Handling (γ : Type) where
  token : String
  option : CommandOption γ
  index : Nat
  argument : Option String
  result : Except Error Unit

namespace Handling

/-- The tokens that an option takes. -/
def words (step : Handling γ) : List String :=
  step.token :: step.argument.toList

/-- The context that handling an option leaves. -/
def after (context : γ) (step : Handling γ) : γ :=
  ((step.option.handle step.argument).run context).2

/-- Handling an option in a context comes to the result that is stated. -/
def Acts (step : Handling γ) (context : γ) : Prop :=
  ((step.option.handle step.argument).run context).1 = step.result

/-- Reading goes on behind an option that could be handled and does not ask for help. -/
def GoesOn (step : Handling γ) : Prop :=
  step.result = .ok () ∧ step.option.isHelp = false

end Handling

/-- Tokens begin with an option that was not given before. It has the next token as its parameter
exactly if it takes one, and that does not look like an option. -/
structure Takes (options : List (CommandOption γ)) (seen : List Nat) (tokens : List String)
    (step : Handling γ) (rest : List String) : Prop where
  gives : Gives options step.token step.option step.index
  fresh : step.index ∉ seen
  reads : tokens = step.words ++ rest
  argument : step.argument.isSome = step.option.takesParameter
  plain : ∀ parameter ∈ step.argument, looksLikeOption parameter = false

/-- How tokens are read in a context: the options that are handled in turn, the outcome and the
context at the end. `seen` has the indices of the options given before. -/
inductive Reads (options : List (CommandOption γ)) :
    (seen : List Nat) → List String → γ → List (Handling γ) → Except Error OptionOutcome → γ → Prop
  | finished {seen : List Nat} {context : γ} :
      Reads options seen [] context [] (.ok .proceed) context
  | unknown {seen : List Nat} {token : String} {rest : List String} {context : γ}
      (none : ∀ option ∈ options, token ≠ option.short ∧ token ≠ option.long) :
      Reads options seen (token :: rest) context [] (.error (.unknownOption token)) context
  | repeated {seen : List Nat} {token : String} {rest : List String} {context : γ}
      {option : CommandOption γ} {index : Nat} (gives : Gives options token option index)
      (given : index ∈ seen) :
      Reads options seen (token :: rest) context [] (.error (.repeatedOption option.short)) context
  | missing {seen : List Nat} {token : String} {rest : List String} {context : γ}
      {option : CommandOption γ} {index : Nat} (gives : Gives options token option index)
      (fresh : index ∉ seen) (takes : option.takesParameter = true)
      (absent : ∀ parameter ∈ rest.head?, looksLikeOption parameter = true) :
      Reads options seen (token :: rest) context [] (.error (.missingParameter option.short))
        context
  | failed {seen : List Nat} {tokens rest : List String} {context : γ} {step : Handling γ}
      {cause : Error} (takes : Takes options seen tokens step rest) (acts : step.Acts context)
      (fails : step.result = .error cause) :
      Reads options seen tokens context [step] (.error cause) (step.after context)
  | helped {seen : List Nat} {tokens rest : List String} {context : γ} {step : Handling γ}
      (takes : Takes options seen tokens step rest) (acts : step.Acts context)
      (handled : step.result = .ok ()) (help : step.option.isHelp = true) :
      Reads options seen tokens context [step] (.ok .help) (step.after context)
  | goesOn {seen : List Nat} {tokens rest : List String} {context final : γ} {step : Handling γ}
      {course : List (Handling γ)} {outcome : Except Error OptionOutcome}
      (takes : Takes options seen tokens step rest) (acts : step.Acts context)
      (goesOn : step.GoesOn)
      (later : Reads options (step.index :: seen) rest (step.after context) course outcome final) :
      Reads options seen tokens context (step :: course) outcome final

/-! ### The registry reads by the rules -/

section

variable {options : List (CommandOption γ)} {seen : List Nat} {token : String}
  {rest : List String} {context : γ} {option : CommandOption γ} {index : Nat}

theorem isGivenBy_iff :
    option.isGivenBy token = true ↔ token = option.short ∨ token = option.long := by
  rw [CommandOption.isGivenBy, Bool.or_eq_true, beq_iff_eq, beq_iff_eq]

theorem find?_eq_some_iff_gives :
    (options.zipIdx.find? fun entry => entry.1.isGivenBy token) = some (option, index) ↔
      Gives options token option index := by
  rw [List.find?_eq_some_iff_getElem]
  constructor
  · rintro ⟨given, place, bound, here, before⟩
    rw [List.getElem_zipIdx, Nat.zero_add] at here
    cases here
    rw [List.length_zipIdx] at bound
    refine ⟨List.getElem?_eq_getElem bound, isGivenBy_iff.mp given,
      fun earlier less other found => ?_⟩
    obtain ⟨_, rfl⟩ := List.getElem?_eq_some_iff.mp found
    have absent := before earlier less
    rwa [List.getElem_zipIdx, Bool.not_eq_true', Bool.eq_false_iff, ne_eq, isGivenBy_iff,
      not_or] at absent
  · rintro ⟨registered, form, first⟩
    obtain ⟨bound, here⟩ := List.getElem?_eq_some_iff.mp registered
    refine ⟨isGivenBy_iff.mpr form, index, by rwa [List.length_zipIdx], ?_, fun earlier less => ?_⟩
    · rw [List.getElem_zipIdx, Nat.zero_add, here]
    · have absent := first earlier less _ (List.getElem?_eq_getElem (Nat.lt_trans less bound))
      rw [List.getElem_zipIdx, Bool.not_eq_true', Bool.eq_false_iff, ne_eq, isGivenBy_iff, not_or]
      exact absent

theorem find?_eq_none_iff :
    (options.zipIdx.find? fun entry => entry.1.isGivenBy token) = none ↔
      ∀ option ∈ options, token ≠ option.short ∧ token ≠ option.long := by
  rw [List.find?_eq_none]
  constructor
  · intro none option member
    obtain ⟨place, bound, rfl⟩ := List.getElem_of_mem member
    have absent := none (options[place], place) (List.mk_mem_zipIdx_iff_getElem?.mpr
      (List.getElem?_eq_getElem bound))
    rwa [isGivenBy_iff, not_or] at absent
  · rintro none ⟨option, place⟩ member
    have absent := none option (List.fst_mem_of_mem_zipIdx member)
    rwa [isGivenBy_iff, not_or]

variable {tokens : List String} {step : Handling γ}

/-- What reading does with an option that it takes. -/
theorem parseFrom_of_takes (takes : Takes options seen tokens step rest) :
    parseFrom options seen tokens = (do
      step.option.handle step.argument
      if step.option.isHelp then return .help
      parseFrom options (step.index :: seen) rest) := by
  obtain ⟨token, option, index, argument, result⟩ := step
  obtain ⟨gives, fresh, rfl, given, plain⟩ := takes
  have found := find?_eq_some_iff_gives.mpr gives
  have unseen : ¬ seen.contains index = true :=
    fun member => fresh (List.contains_iff_mem.mp member)
  cases argument with
  | none =>
    have bare : ¬ option.takesParameter = true := by
      rw [← given]
      exact Bool.false_ne_true
    rw [Handling.words, Option.toList_none, List.singleton_append, parseFrom, found]
    exact (if_neg unseen).trans (if_neg bare)
  | some parameter =>
    have word : ¬ looksLikeOption parameter = true := by
      rw [plain parameter rfl]
      exact Bool.false_ne_true
    rw [Handling.words, Option.toList_some, List.cons_append, List.singleton_append, parseFrom,
      found]
    exact (if_neg unseen).trans ((if_pos given.symm).trans (if_neg word))

theorem run_parseFrom_of_takes (takes : Takes options seen tokens step rest)
    (acts : step.Acts context) :
    (parseFrom options seen tokens).run context =
      match step.result with
      | .error cause => (.error cause, step.after context)
      | .ok _ =>
        if step.option.isHelp then (.ok .help, step.after context)
        else (parseFrom options (step.index :: seen) rest).run (step.after context) := by
  rw [parseFrom_of_takes takes, OptionAction.run_bind, ← acts, Handling.after]
  cases ((step.option.handle step.argument).run context).1 with
  | error cause => rfl
  | ok _ =>
    cases step.option.isHelp with
    | true => rfl
    | false => rfl

/-- The registry reads by the rules. -/
theorem parseFrom_of_reads {course : List (Handling γ)} {outcome : Except Error OptionOutcome}
    {final : γ} (reads : Reads options seen tokens context course outcome final) :
    (parseFrom options seen tokens).run context = (outcome, final) := by
  induction reads with
  | finished => rfl
  | unknown none =>
    rw [parseFrom, find?_eq_none_iff.mpr none]
    rfl
  | repeated gives given =>
    rw [parseFrom, find?_eq_some_iff_gives.mpr gives]
    dsimp only
    rw [if_pos (List.contains_iff_mem.mpr given)]
    rfl
  | @missing seen token rest context option index gives fresh takes absent =>
    have unseen : ¬ seen.contains index = true :=
      fun member => fresh (List.contains_iff_mem.mp member)
    rw [parseFrom, find?_eq_some_iff_gives.mpr gives]
    dsimp only
    rw [if_neg unseen, if_pos takes]
    cases rest with
    | nil => rfl
    | cons parameter rest =>
      dsimp only
      rw [if_pos (absent parameter rfl)]
      rfl
  | failed takes acts fails => rw [run_parseFrom_of_takes takes acts, fails]
  | helped takes acts handled help =>
    rw [run_parseFrom_of_takes takes acts, handled]
    exact if_pos help
  | goesOn takes acts goesOn _ inductionHypothesis =>
    rw [run_parseFrom_of_takes takes acts, goesOn.1]
    exact (if_neg (Bool.eq_false_iff.mp goesOn.2)).trans inductionHypothesis

/-- Tokens that are left begin with an option that is taken, or reading ends there. -/
theorem takes_or_stops (options : List (CommandOption γ)) (seen : List Nat) (token : String)
    (rest : List String) :
    (∀ context, ∃ outcome, Reads options seen (token :: rest) context [] outcome context) ∨
      ∃ option index argument left, ∀ result,
        Takes options seen (token :: rest) ⟨token, option, index, argument, result⟩ left := by
  cases found : options.zipIdx.find? fun entry => entry.1.isGivenBy token with
  | none => exact .inl fun _ => ⟨_, .unknown (find?_eq_none_iff.mp found)⟩
  | some entry =>
    obtain ⟨option, index⟩ := entry
    have gives := find?_eq_some_iff_gives.mp found
    by_cases given : index ∈ seen
    · exact .inl fun _ => ⟨_, .repeated gives given⟩
    cases takes : option.takesParameter with
    | false =>
      exact .inr ⟨option, index, none, rest, fun _ =>
        ⟨gives, given, rfl, takes.symm, fun _ none => by cases none⟩⟩
    | true =>
      by_cases absent : ∀ parameter ∈ rest.head?, looksLikeOption parameter = true
      · exact .inl fun _ => ⟨_, .missing gives given takes absent⟩
      · cases rest with
        | nil => exact absurd (fun _ none => by cases none) absent
        | cons parameter left =>
          refine .inr ⟨option, index, some parameter, left, fun _ =>
            ⟨gives, given, rfl, takes.symm, fun other same => ?_⟩⟩
          cases same
          exact Bool.eq_false_iff.mpr fun looks => absent fun _ head => by
            cases head
            exact looks

theorem Takes.length_lt (takes : Takes options seen tokens step rest) :
    rest.length < tokens.length := by
  rw [takes.reads, Handling.words, List.length_append, List.length_cons]
  omega

/-- Whatever the tokens are, some rule applies to them. -/
theorem exists_reads (options : List (CommandOption γ)) (seen : List Nat) (tokens : List String)
    (context : γ) : ∃ course outcome final,
      Reads options seen tokens context course outcome final := by
  -- Each option that is taken leaves fewer tokens.
  induction length : tokens.length using Nat.strongRecOn generalizing seen tokens context with
  | ind count inductionHypothesis =>
    subst length
    cases tokens with
    | nil => exact ⟨_, _, _, .finished⟩
    | cons token rest =>
      rcases takes_or_stops options seen token rest with
        stops | ⟨option, index, argument, left, takes⟩
      · obtain ⟨outcome, reads⟩ := stops context
        exact ⟨_, outcome, context, reads⟩
      · have takes := takes ((option.handle argument).run context).1
        cases result : ((option.handle argument).run context).1 with
        | error cause => exact ⟨_, _, _, .failed takes rfl result⟩
        | ok _ =>
          cases help : option.isHelp with
          | true => exact ⟨_, _, _, .helped takes rfl result help⟩
          | false =>
            obtain ⟨course, outcome, final, later⟩ :=
              inductionHypothesis left.length takes.length_lt (index :: seen) left _ rfl
            exact ⟨_, outcome, final, .goesOn takes rfl ⟨result, help⟩ later⟩

/-! ### What a reading comes to -/

namespace Reads

variable {course : List (Handling γ)} {outcome : Except Error OptionOutcome} {final : γ}

/-- No option is handled twice. -/
theorem nodup (reads : Reads options seen tokens context course outcome final) :
    (course.map Handling.index).Nodup ∧ ∀ step ∈ course, step.index ∉ seen := by
  induction reads with
  | finished | unknown | repeated | missing =>
    exact ⟨List.nodup_nil, fun _ member => absurd member List.not_mem_nil⟩
  | failed takes | helped takes =>
    refine ⟨List.pairwise_singleton .., fun step member => ?_⟩
    rw [List.mem_singleton.mp member]
    exact takes.fresh
  | goesOn takes _ _ _ inductionHypothesis =>
    obtain ⟨distinct, fresh⟩ := inductionHypothesis
    refine ⟨List.nodup_cons.mpr ⟨fun again => ?_, distinct⟩, List.forall_mem_cons.mpr
      ⟨takes.fresh, fun step member given => fresh step member (List.mem_cons_of_mem _ given)⟩⟩
    obtain ⟨step, member, same⟩ := List.mem_map.mp again
    exact fresh step member (same ▸ List.mem_cons_self)

/-- The context is what the options that are handled make of it, also where reading fails. -/
theorem final_eq (reads : Reads options seen tokens context course outcome final) :
    final = course.foldl Handling.after context := by
  induction reads with
  | finished | unknown | repeated | missing | failed | helped => rfl
  | goesOn _ _ _ _ inductionHypothesis => exact inductionHypothesis

/-- Reading is finished exactly if all tokens belong to options behind which it goes on. -/
theorem proceeds_iff (reads : Reads options seen tokens context course outcome final) :
    outcome = .ok .proceed ↔
      tokens = course.flatMap Handling.words ∧ ∀ step ∈ course, step.GoesOn := by
  induction reads with
  | finished => exact iff_of_true rfl ⟨rfl, fun _ member => absurd member List.not_mem_nil⟩
  | unknown | repeated | missing =>
    exact iff_of_false (fun same => by cases same) fun whole => by cases whole.1
  | failed takes _ fails =>
    refine iff_of_false (fun same => by cases same) fun whole => ?_
    cases fails.symm.trans (whole.2 _ List.mem_cons_self).1
  | helped takes _ _ help =>
    refine iff_of_false (fun same => by cases same) fun whole => ?_
    cases help.symm.trans (whole.2 _ List.mem_cons_self).2
  | goesOn takes _ goesOn _ inductionHypothesis =>
    rw [inductionHypothesis, List.flatMap_cons, List.forall_mem_cons, takes.reads,
      List.append_cancel_left_eq]
    exact and_congr_right fun _ => (and_iff_right goesOn).symm

end Reads

end

/-- A registry has the first options with a form that were registered, as many as there may be,
and it reads tokens by the rules and in no other way. No option is handled twice, and the context
is what the options that are handled make of it, whatever the outcome; reading is finished exactly
if all tokens belong to options behind which it goes on. -/
theorem parse_reads (calls : List (CommandOption γ)) (tokens : List String) (context : γ) :
    let registry := empty.registerAll calls
    registry.options = (calls.filter CommandOption.hasForm).take maxOptions ∧
      (∃ course outcome final,
        (registry.parse tokens).run context = (outcome, final) ∧
          Reads registry.options [] tokens context course outcome final ∧
          (course.map Handling.index).Nodup ∧ final = course.foldl Handling.after context ∧
          (outcome = .ok .proceed ↔
            tokens = course.flatMap Handling.words ∧ ∀ step ∈ course, step.GoesOn)) ∧
      ∀ course outcome final, Reads registry.options [] tokens context course outcome final →
        (registry.parse tokens).run context = (outcome, final) := by
  intro registry
  refine ⟨options_registerAll calls empty, ?_, fun _ _ _ reads => parseFrom_of_reads reads⟩
  obtain ⟨course, outcome, final, reads⟩ := exists_reads registry.options [] tokens context
  exact ⟨course, outcome, final, parseFrom_of_reads reads, reads, reads.nodup.1, reads.final_eq,
    reads.proceeds_iff⟩

end OptionRegistry

end NicScope
