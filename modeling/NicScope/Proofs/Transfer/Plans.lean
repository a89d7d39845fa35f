/-
This file says what a command does with the device: it has a plan, to read one thing after
another, each of which may depend on what was read before, and puts the errors of reading
into its own words. However the plan is carried out, the requests are those of its readings
one after another. If one of them fails, or if what was read in whole cannot be decoded,
nothing more is requested, and the plan ends with an error of the same number.
-/

import NicScope.Proofs.Transfer.Orders

namespace NicScope

open Dialogue

variable {α β γ : Type}

/-! ### Dialogues one after another -/

instance {Question Answer : Type} : LawfulMonad (Dialogue Question Answer) :=
  LawfulMonad.mk' _ bind_done (fun _ _ => rfl) bind_bind

/-- Words for an error that keep its number, and whether it breaks the run off. -/
structure Wording where
  describe : Error → Error
  errno_describe : ∀ cause, (describe cause).errno = cause.errno
  breaksOff_describe : ∀ cause, (describe cause).breaksOff = cause.breaksOff

namespace Wording

/-- No words at all. -/
def plain : Wording := ⟨id, fun _ => rfl, fun _ => rfl⟩

/-- Other words for an error that is in words already. -/
def within (inner outer : Wording) : Wording :=
  ⟨outer.describe ∘ inner.describe,
    fun cause => (outer.errno_describe _).trans (inner.errno_describe cause),
    fun cause => (outer.breaksOff_describe _).trans (inner.breaksOff_describe cause)⟩

/-- The help of a command does not follow on such an error. -/
def Told (wording : Wording) : Prop :=
  ∀ cause text, wording.describe cause ≠ .usage text

theorem numbered (wording : Wording) {cause : Error} {number : Int}
    (numbered : cause.Numbered number) : (wording.describe cause).Numbered number :=
  ⟨(wording.errno_describe cause).trans numbered.1,
    (wording.breaksOff_describe cause).trans numbered.2⟩

end Wording

/-- What is to be read: orders one after another, with the words for their errors. -/
inductive Plan (α : Type) : Type 1 where
  | done (result : Except Error α)
  | note (record : LogRecord) (next : Plan α)
  | read {β : Type} (order : Order β) (wording : Wording) (next : β → Plan α)

namespace Plan

/-- Carries a plan out. -/
def exchange : Plan α → Exchange α
  | done result => Fetch.fromExcept result
  | note record next => ExceptT.mk (.tell record next.exchange.run)
  | read order wording next => do
    let given ← Fetch.withCause wording.describe order.exchange
    (next given).exchange

/-- Something that holds of every order of a plan with the words for its errors. -/
def All (holds : {β : Type} → Order β → Wording → Prop) : Plan α → Prop
  | done _ => True
  | note _ next => next.All holds
  | read order wording next => holds order wording ∧ ∀ given, (next given).All holds

/-- Goes on with `next` once a plan is carried out. -/
protected def bind : Plan α → (α → Plan β) → Plan β
  | done (.ok value), next => next value
  | done (.error cause), _ => done (.error cause)
  | note record plan, next => note record (plan.bind next)
  | read order wording plan, next => read order wording fun given => (plan given).bind next

instance : Monad Plan where
  pure value := done (.ok value)
  bind := Plan.bind

/-- Reads one thing, and puts no words to its errors. -/
def order (order : Order α) : Plan α :=
  read order .plain fun given => done (.ok given)

/-- Puts all errors of a plan into other words. -/
def reworded (outer : Wording) : Plan α → Plan α
  | done result => done (result.mapError outer.describe)
  | note record next => note record (next.reworded outer)
  | read order wording next =>
    read order (wording.within outer) fun given => (next given).reworded outer

/-! ### Plans in parts -/

theorem exchange_bind (plan : Plan α) (next : α → Plan β) :
    (plan >>= next).exchange = plan.exchange >>= fun given => (next given).exchange := by
  change (plan.bind next).exchange = _
  induction plan with
  | done result =>
    cases result with
    | ok value => rfl
    | error cause => rfl
  | note record plan inductionHypothesis =>
    rw [Plan.bind, exchange, inductionHypothesis]
    rfl
  | read order wording plan inductionHypothesis =>
    simp only [Plan.bind, exchange, inductionHypothesis, bind_assoc]

theorem All.mono {holds also : {β : Type} → Order β → Wording → Prop} {plan : Plan α}
    (all : plan.All holds)
    (includes : ∀ {β : Type} (order : Order β) (wording : Wording), holds order wording →
      also order wording) : plan.All also := by
  induction plan with
  | done result => trivial
  | note record next inductionHypothesis => exact inductionHypothesis all
  | read order wording next inductionHypothesis =>
    exact ⟨includes order wording all.1, fun given => inductionHypothesis given (all.2 given)⟩

theorem all_bind {holds : {β : Type} → Order β → Wording → Prop} {plan : Plan α}
    {next : α → Plan β} (first : plan.All holds) (second : ∀ given, (next given).All holds) :
    (plan >>= next).All holds := by
  change (plan.bind next).All holds
  induction plan with
  | done result =>
    cases result with
    | ok value => exact second value
    | error cause => trivial
  | note record plan inductionHypothesis => exact inductionHypothesis first
  | read order wording plan inductionHypothesis =>
    exact ⟨first.1, fun given => inductionHypothesis given (first.2 given)⟩

/-- Errors are put into other words part by part. -/
theorem withCause_bind (describe : Error → Error) (first : Exchange α) (next : α → Exchange β) :
    Fetch.withCause describe (first >>= next) =
      Fetch.withCause describe first >>= fun given => Fetch.withCause describe (next given) := by
  refine (bind_bind _ _ _).trans (Eq.trans ?_ (bind_bind _ _ _).symm)
  refine congrArg (Dialogue.bind first) (funext fun given => ?_)
  cases given with
  | ok value => rfl
  | error cause => rfl

theorem withCause_withCause (inner outer : Wording) (exchange : Exchange α) :
    Fetch.withCause outer.describe (Fetch.withCause inner.describe exchange) =
      Fetch.withCause (inner.within outer).describe exchange := by
  refine (bind_bind _ _ _).trans (congrArg (Dialogue.bind exchange) (funext fun given => ?_))
  cases given with
  | ok value => rfl
  | error cause => rfl

theorem withCause_plain (exchange : Exchange α) :
    Fetch.withCause Wording.plain.describe exchange = exchange := by
  refine Eq.trans (congrArg (Dialogue.bind exchange) (funext fun given => ?_)) (bind_done exchange)
  cases given with
  | ok value => rfl
  | error cause => rfl

theorem exchange_reworded (plan : Plan α) (outer : Wording) :
    (plan.reworded outer).exchange = Fetch.withCause outer.describe plan.exchange := by
  induction plan with
  | done result => rfl
  | note record next inductionHypothesis =>
    rw [reworded, exchange, inductionHypothesis]
    rfl
  | read order wording next inductionHypothesis =>
    simp only [reworded, exchange, inductionHypothesis, withCause_bind, withCause_withCause]

theorem all_reworded {holds also : {β : Type} → Order β → Wording → Prop} {plan : Plan α}
    {outer : Wording} (all : plan.All holds)
    (stays : ∀ {β : Type} (order : Order β) (inner : Wording), holds order inner →
      also order (inner.within outer)) : (plan.reworded outer).All also := by
  induction plan with
  | done result => trivial
  | note record next inductionHypothesis => exact inductionHypothesis all
  | read order wording next inductionHypothesis =>
    exact ⟨stays order wording all.1, fun given => inductionHypothesis given (all.2 given)⟩

end Plan

/-- An exchange carries out a plan, of whose orders something holds. -/
structure Planned (holds : {β : Type} → Order β → Wording → Prop) (plan : Plan α)
    (exchange : Exchange α) : Prop where
  carries : plan.exchange = exchange
  all : plan.All holds

namespace Planned

variable {holds : {β : Type} → Order β → Wording → Prop}

protected theorem done (result : Except Error α) :
    Planned holds (.done result) (Fetch.fromExcept result) :=
  ⟨rfl, trivial⟩

protected theorem pure (value : α) : Planned holds (pure value) (pure value) :=
  .done (.ok value)

protected theorem note (record : LogRecord) :
    Planned holds (.note record (.done (.ok ()))) (ExceptT.lift (Dialogue.note record)) :=
  ⟨rfl, trivial⟩

protected theorem bind {plan : Plan α} {later : α → Plan β} {first : Exchange α}
    {next : α → Exchange β} (one : Planned holds plan first)
    (other : ∀ given, Planned holds (later given) (next given)) :
    Planned holds (plan >>= later) (first >>= next) where
  carries := by
    rw [Plan.exchange_bind, one.carries]
    exact congrArg _ (funext fun given => (other given).carries)
  all := Plan.all_bind one.all fun given => (other given).all

protected theorem map {plan : Plan α} {first : Exchange α} (change : α → β)
    (one : Planned holds plan first) : Planned holds (change <$> plan) (change <$> first) := by
  rw [map_eq_pure_bind (x := first)]
  exact one.bind fun _ => .pure _

protected theorem ite {condition : Prop} [Decidable condition] {plan other : Plan α}
    {first second : Exchange α} (one : Planned holds plan first)
    (also : Planned holds other second) :
    Planned holds (if condition then plan else other) (if condition then first else second) := by
  split
  · exact one
  · exact also

theorem order (order : Order α) (good : holds order .plain) :
    Planned holds (.order order) order.exchange := by
  refine ⟨?_, good, fun _ => trivial⟩
  rw [Plan.order, Plan.exchange, Plan.withCause_plain]
  exact bind_pure order.exchange

theorem withCause {also : {β : Type} → Order β → Wording → Prop} {plan : Plan α}
    {exchange : Exchange α} (outer : Wording) (planned : Planned holds plan exchange)
    (stays : ∀ {β : Type} (order : Order β) (inner : Wording), holds order inner →
      also order (inner.within outer)) :
    Planned also (plan.reworded outer) (Fetch.withCause outer.describe exchange) where
  carries := by rw [Plan.exchange_reworded, planned.carries]
  all := Plan.all_reworded planned.all stays

end Planned

/-! ### Attempts -/

/-- An order with the steps that were taken for it. -/
structure Attempt where
  {β : Type}
  order : Order β
  steps : List (Query × Reply)

namespace Attempt

/-- A request of the attempt fails, behind these steps of it, with this number. -/
def FailsAt (attempt : Attempt) (earlier : List (Query × Reply)) (reply : Reply) (number : Int) :
    Prop :=
  attempt.order.Fails (earlier.map Prod.snd) reply number

/-- All that the order is about was delivered, and cannot be decoded. -/
def Undecodable (attempt : Attempt) : Prop :=
  ∃ cause, attempt.order.Delivers attempt.steps (.error cause)

end Attempt

namespace Plan

/-- The attempts that carrying a plan out can take, and what it ends with. -/
inductive Course : Plan α → List Attempt → Except Error α → Prop
  | done {result : Except Error α} : Course (.done result) [] result
  | note {record : LogRecord} {next : Plan α} {attempts : List Attempt}
      {result : Except Error α} (rest : Course next attempts result) :
      Course (.note record next) attempts result
  | failed {β : Type} {order : Order β} {wording : Wording} {next : β → Plan α}
      {steps : List (Query × Reply)} {cause : Error}
      (held : order.exchange.run.Held steps (.error cause)) :
      Course (.read order wording next) [⟨order, steps⟩] (.error (wording.describe cause))
  | read {β : Type} {order : Order β} {wording : Wording} {next : β → Plan α} {given : β}
      {steps : List (Query × Reply)} {attempts : List Attempt} {result : Except Error α}
      (held : order.exchange.run.Held steps (.ok given))
      (rest : Course (next given) attempts result) :
      Course (.read order wording next) (⟨order, steps⟩ :: attempts) result

/-- What is requested to carry a plan out is requested by its attempts one after another. -/
theorem course_of_held {plan : Plan α} {steps : List (Query × Reply)} {result : Except Error α}
    (held : plan.exchange.run.Held steps result) :
    ∃ attempts : List Attempt, steps = attempts.flatMap Attempt.steps ∧
      plan.Course attempts result := by
  induction plan generalizing steps with
  | done given =>
    cases held with
    | done => exact ⟨[], rfl, .done⟩
  | note record next inductionHypothesis =>
    cases held with
    | tell rest =>
      obtain ⟨attempts, split, course⟩ := inductionHypothesis rest
      exact ⟨attempts, split, .note course⟩
  | read order wording next inductionHypothesis =>
    rcases Exchange.held_bind held with ⟨cause, told, rfl⟩ | ⟨before, later, given, rfl, told, rest⟩
    · obtain ⟨outcome, reads, same⟩ := Held.of_bind_done told
      cases outcome with
      | ok value => cases same
      | error reason =>
        cases same
        exact ⟨[⟨order, steps⟩], (List.append_nil steps).symm, .failed reads⟩
    · obtain ⟨outcome, reads, same⟩ := Held.of_bind_done told
      cases outcome with
      | error reason => cases same
      | ok value =>
        cases same
        obtain ⟨attempts, rfl, course⟩ := inductionHypothesis given rest
        exact ⟨⟨order, before⟩ :: attempts, rfl, .read reads course⟩

/-- The steps of an attempt are taken for its order. -/
theorem Course.held {plan : Plan α} {attempts : List Attempt} {result : Except Error α}
    (course : plan.Course attempts result) :
    ∀ attempt ∈ attempts, ∃ outcome, attempt.order.exchange.run.Held attempt.steps outcome := by
  induction course with
  | done => exact fun _ member => absurd member List.not_mem_nil
  | note _ inductionHypothesis => exact inductionHypothesis
  | failed held =>
    intro attempt member
    obtain rfl := List.mem_singleton.mp member
    exact ⟨_, held⟩
  | read held _ inductionHypothesis =>
    intro attempt member
    rcases List.mem_cons.mp member with rfl | later
    · exact ⟨_, held⟩
    · exact inductionHypothesis attempt later

/-- A plan that reads something attempts that first. -/
theorem Course.first {plan : Plan α} {attempts : List Attempt} {result : Except Error α}
    {β : Type} {order : Order β} {wording : Wording} {next : β → Plan α}
    (course : plan.Course attempts result) (reads : plan = .read order wording next) :
    ∃ steps after, attempts = ⟨order, steps⟩ :: after ∧
      ∃ outcome, order.exchange.run.Held steps outcome := by
  subst reads
  cases course with
  | failed held => exact ⟨_, [], rfl, _, held⟩
  | read held _ => exact ⟨_, _, rfl, _, held⟩

/-- Only orders of the plan are attempted. -/
theorem Course.all {plan : Plan α} {attempts : List Attempt} {result : Except Error α}
    {holds : {β : Type} → Order β → Wording → Prop} (course : plan.Course attempts result)
    (all : plan.All holds) : ∀ attempt ∈ attempts, ∃ wording, holds attempt.order wording := by
  induction course with
  | done => exact fun _ member => absurd member List.not_mem_nil
  | note _ inductionHypothesis => exact inductionHypothesis all
  | @failed _ _ wording =>
    intro attempt member
    obtain rfl := List.mem_singleton.mp member
    exact ⟨wording, all.1⟩
  | @read _ _ wording _ given _ _ _ _ _ inductionHypothesis =>
    intro attempt member
    rcases List.mem_cons.mp member with rfl | later
    · exact ⟨wording, all.1⟩
    · exact inductionHypothesis (all.2 given) attempt later

/-- A plan ends with an error of this number that no help follows on. -/
def EndsWith (result : Except Error α) (number : Int) : Prop :=
  ∃ cause, result = .error cause ∧ cause.Numbered number ∧ ∀ text, cause ≠ .usage text

variable {plan : Plan α} {before after : List Attempt} {attempt : Attempt}
  {result : Except Error α}

/-- An attempt that can only end with an error of some number is the last one. -/
theorem Course.ends (course : plan.Course (before ++ attempt :: after) result)
    (told : plan.All fun _ wording => wording.Told) {number : Int}
    (fails : ∀ outcome, attempt.order.exchange.run.Held attempt.steps outcome →
      ∃ cause, outcome = .error cause ∧ cause.Numbered number) :
    after = [] ∧ EndsWith result number := by
  generalize split : before ++ attempt :: after = attempts at course
  induction course generalizing before with
  | done => exact absurd split (by simp)
  | note _ inductionHypothesis => exact inductionHypothesis told split
  | @failed _ order wording next steps cause held =>
    obtain ⟨rfl, rfl, rfl⟩ : before = [] ∧ attempt = ⟨order, steps⟩ ∧ after = [] := by
      cases before with
      | nil =>
        obtain ⟨here, rest⟩ := List.cons.inj split
        exact ⟨rfl, here, rest⟩
      | cons first others => exact absurd (List.cons.inj split).2 (by simp)
    obtain ⟨reason, same, numbered⟩ := fails _ held
    cases same
    exact ⟨rfl, wording.describe cause, rfl, wording.numbered numbered, told.1 cause⟩
  | @read _ order wording next given steps attempts result held _ inductionHypothesis =>
    cases before with
    | nil =>
      obtain ⟨rfl, rfl⟩ := List.cons.inj split
      obtain ⟨reason, same, _⟩ := fails _ held
      cases same
    | cons first others =>
      exact inductionHypothesis (told.2 given) (List.cons.inj split).2

/-- A failed request is the last one of all, and the plan ends with its number. -/
theorem Course.ends_of_fails (course : plan.Course (before ++ attempt :: after) result)
    (told : plan.All fun _ wording => wording.Told) {earlier later : List (Query × Reply)}
    {query : Query} {reply : Reply} (taken : attempt.steps = earlier ++ (query, reply) :: later)
    {number : Int} (fails : attempt.FailsAt earlier reply number) :
    later = [] ∧ after = [] ∧ EndsWith result number := by
  obtain ⟨outcome, held⟩ := course.held attempt (List.mem_append_right before List.mem_cons_self)
  rw [taken] at held
  obtain ⟨last, _⟩ := Order.ends_of_fails held fails
  refine ⟨last, course.ends told fun outcome held => ?_⟩
  rw [taken] at held
  exact (Order.ends_of_fails held fails).2

/-- If what was read in whole cannot be decoded, nothing more is requested. -/
theorem Course.ends_of_undecodable (course : plan.Course (before ++ attempt :: after) result)
    (told : plan.All fun _ wording => wording.Told) (undecodable : attempt.Undecodable) :
    after = [] ∧ EndsWith result (-22) := by
  obtain ⟨cause, delivers⟩ := undecodable
  refine course.ends told fun outcome held => ⟨.decode cause, ?_, rfl, rfl⟩
  rw [Order.ends_of_delivers held delivers]
  rfl

end Plan

end NicScope
