/-
This file follows the host through its accesses to the register window: what is read
where and what is written where, one access after another. A window that keeps a record
of its accesses answers as it did without one, so every action on a window has accesses,
and the window as it was performs them. What is laid out, rung and looked at in the
course of a request is told here action by action.
-/

import NicScope.Device.Window
import NicScope.Proofs.Recording

namespace NicScope

/-- An access to a register: what was read there, or what was written. -/
inductive Access where
  | read (register : Nat) (value : UInt32)
  | write (register : Nat) (value : UInt32)
  deriving DecidableEq, Repr

namespace Access

def register : Access → Nat
  | read register _ => register
  | write register _ => register

/-- What was read, if it was read at `register`. -/
def readAt? (register : Nat) : Access → Option UInt32
  | read place value => if place = register then some value else none
  | write _ _ => none

/-- What was written, if it was written at `register`. -/
def writtenAt? (register : Nat) : Access → Option UInt32
  | read _ _ => none
  | write place value => if place = register then some value else none

/-- The writes of consecutive registers, the first of them `register`. -/
def writesFrom : (register : Nat) → List UInt32 → List Access
  | _, [] => []
  | register, value :: rest => write register value :: writesFrom (register + 1) rest

/-- The reads of consecutive registers, the first of them `register`. -/
def readsFrom : (register : Nat) → List UInt32 → List Access
  | _, [] => []
  | register, value :: rest => read register value :: readsFrom (register + 1) rest

/-- The looks at the completion status that give `codes`. -/
def looksAt (codes : List UInt32) : List Access :=
  codes.map (read Register.completion)

/-- The writes that tell the firmware to execute a round. -/
def ringing : List Access :=
  [write Register.completion 0, write Register.doorbell 1]

/-- The writes that start a round after the first, given how that one completed. -/
def starting (first : Completion) : List Access :=
  if first = .byTrusted then ringing else [write Register.completion 0]

/-- The writes that lay a request into the window. -/
def placing (query : Query) : List Access :=
  write Register.requestWords (UInt32.ofNat query.words.length) ::
    (writesFrom Register.requestHeader query.header.words ++
      (writesFrom Register.requestData (List.replicate Request.maxWords 0) ++
        writesFrom Register.requestData query.words))

end Access

/-- What the looks at a completion status come to: one that is still pending passes, the
first other one is the status, and when no look is left the host has waited too long. -/
inductive Awaited : (polls : Nat) → List Completion → Completion → Prop
  | exhausted : Awaited 0 [] .hostTimeout
  | passed {polls : Nat} {looks : List Completion} {status : Completion}
      (rest : Awaited polls looks status) : Awaited (polls + 1) (.pending :: looks) status
  | settled {polls : Nat} {status : Completion} (set : status ≠ .pending) :
      Awaited (polls + 1) [status] status

namespace Window

variable {σ α β : Type}

/-! ### Accesses of an action -/

/-- The window that keeps its accesses beside its state, the latest last. -/
def recording (window : Window σ) : Window (σ × List Access) where
  read register := fun state =>
    ((window.read register state.1).1, (window.read register state.1).2,
      state.2 ++ [.read register (window.read register state.1).1])
  write register value := fun state =>
    ((), (window.write register value state.1).2, state.2 ++ [.write register value])

/-- Accesses lead from a state to another, and what they read is there to be read. -/
def Performs (window : Window σ) : σ → List Access → σ → Prop
  | state, [], final => final = state
  | state, .read register value :: later, final =>
    (window.read register state).1 = value ∧
      window.Performs (window.read register state).2 later final
  | state, .write register value :: later, final =>
    window.Performs (window.write register value state).2 later final

/-- The accesses of a request. -/
def accesses (window : Window σ) (polls : Nat) (query : Query) (state : σ) : List Access :=
  (window.recording.request polls query (state, [])).2.2

theorem performs_append {window : Window σ} {state middle final : σ}
    {before later : List Access} (first : window.Performs state before middle)
    (second : window.Performs middle later final) :
    window.Performs state (before ++ later) final := by
  induction before generalizing state with
  | nil =>
    obtain rfl : middle = state := first
    exact second
  | cons access rest inductionHypothesis =>
    cases access with
    | read register value => exact ⟨first.1, inductionHypothesis first.2⟩
    | write register value => exact inductionHypothesis first

/-- An action whose accesses, with its result, are a course; `twin` is the same action on the
recording window. -/
def Follows (window : Window σ) (action : StateM σ α) (twin : StateM (σ × List Access) α)
    (course : List Access → α → Prop) : Prop :=
  Recorded Prod.mk action twin fun state accesses result final =>
    window.Performs state accesses final ∧ course accesses result

section Steps

variable (window : Window σ)

theorem follows_read (register : Nat) :
    window.Follows (window.read register) (window.recording.read register)
      fun accesses value => accesses = [.read register value] :=
  fun _ _ => ⟨_, rfl, ⟨rfl, rfl⟩, rfl⟩

theorem follows_write (register : Nat) (value : UInt32) :
    window.Follows (window.write register value) (window.recording.write register value)
      fun accesses _ => accesses = [.write register value] :=
  fun _ _ => ⟨_, rfl, rfl, rfl⟩

theorem follows_pure (result : α) :
    window.Follows (pure result) (pure result)
      fun accesses given => accesses = [] ∧ given = result :=
  (Recorded.pure Prod.mk result).mono fun _ _ _ _ ⟨silent, given, stays⟩ => by
    subst silent
    exact ⟨stays, rfl, given⟩

end Steps

namespace Follows

variable {window : Window σ} {action : StateM σ α} {twin : StateM (σ × List Access) α}
  {course : List Access → α → Prop}

protected theorem bind {next : α → StateM σ β} {nextTwin : α → StateM (σ × List Access) β}
    {later : α → List Access → β → Prop} (first : window.Follows action twin course)
    (second : ∀ given, window.Follows (next given) (nextTwin given) (later given)) :
    window.Follows (action >>= next) (twin >>= nextTwin) fun accesses result =>
      ∃ before behind given, accesses = before ++ behind ∧ course before given ∧
        later given behind result := by
  refine (Recorded.bind first second).mono fun state accesses result final => ?_
  rintro ⟨before, behind, given, middle, rfl, ⟨reaches, takes⟩, goes, follows⟩
  exact ⟨performs_append reaches goes, before, behind, given, rfl, takes, follows⟩

protected theorem ite {condition : Prop} [Decidable condition] {other : StateM σ α}
    {otherTwin : StateM (σ × List Access) α} {otherCourse : List Access → α → Prop}
    (first : window.Follows action twin course)
    (second : window.Follows other otherTwin otherCourse) :
    window.Follows (if condition then action else other) (if condition then twin else otherTwin)
      fun accesses result =>
        if condition then course accesses result else otherCourse accesses result := by
  split
  · exact first
  · exact second

theorem mono {wider : List Access → α → Prop} (follows : window.Follows action twin course)
    (includes : ∀ accesses result, course accesses result → wider accesses result) :
    window.Follows action twin wider :=
  Recorded.mono follows fun _ _ _ _ ⟨reaches, takes⟩ => ⟨reaches, includes _ _ takes⟩

end Follows

/-! ### Parts of a request -/

variable (window : Window σ)

theorem follows_writeFrom (register : Nat) (values : List UInt32) :
    window.Follows (window.writeFrom register values)
      (window.recording.writeFrom register values)
      fun accesses _ => accesses = Access.writesFrom register values := by
  induction values generalizing register with
  | nil => exact (window.follows_pure ()).mono fun _ _ silent => silent.1
  | cons value rest inductionHypothesis =>
    refine ((window.follows_write register value).bind fun _ =>
      inductionHypothesis (register + 1)).mono ?_
    rintro _ _ ⟨_, _, _, rfl, rfl, rfl⟩
    rfl

theorem follows_readFrom (register count : Nat) :
    window.Follows (window.readFrom register count) (window.recording.readFrom register count)
      fun accesses values =>
        values.length = count ∧ accesses = Access.readsFrom register values := by
  induction count generalizing register with
  | zero =>
    refine (window.follows_pure []).mono ?_
    rintro _ _ ⟨rfl, rfl⟩
    exact ⟨rfl, rfl⟩
  | succ count inductionHypothesis =>
    refine ((window.follows_read register).bind fun value =>
      (inductionHypothesis (register + 1)).bind fun rest =>
        window.follows_pure (value :: rest)).mono ?_
    rintro _ _ ⟨_, _, value, rfl, rfl, _, _, rest, rfl, ⟨length, rfl⟩, rfl, rfl⟩
    refine ⟨congrArg Nat.succ length, ?_⟩
    rw [List.append_nil]
    rfl

theorem follows_ring :
    window.Follows window.ring window.recording.ring
      fun accesses _ => accesses = Access.ringing := by
  refine ((window.follows_write Register.completion 0).bind fun _ =>
    window.follows_write Register.doorbell 1).mono ?_
  rintro _ _ ⟨_, _, _, rfl, rfl, rfl⟩
  rfl

theorem follows_awaitCompletion (polls : Nat) :
    window.Follows (window.awaitCompletion polls) (window.recording.awaitCompletion polls)
      fun accesses status => ∃ codes, accesses = Access.looksAt codes ∧
        Awaited polls (codes.map Completion.ofCode) status := by
  induction polls with
  | zero =>
    refine (window.follows_pure Completion.hostTimeout).mono ?_
    rintro _ _ ⟨rfl, rfl⟩
    exact ⟨[], rfl, .exhausted⟩
  | succ polls inductionHypothesis =>
    refine ((window.follows_read Register.completion).bind fun code =>
      inductionHypothesis.ite (window.follows_pure (Completion.ofCode code))).mono ?_
    rintro _ _ ⟨_, _, code, rfl, rfl, follows⟩
    split at follows
    next pending =>
      obtain ⟨codes, rfl, awaited⟩ := follows
      refine ⟨code :: codes, rfl, ?_⟩
      rw [List.map_cons, pending]
      exact .passed awaited
    next set =>
      obtain ⟨rfl, rfl⟩ := follows
      exact ⟨[code], rfl, .settled set⟩

theorem follows_place (query : Query) :
    window.Follows (window.place query) (window.recording.place query)
      fun accesses _ => accesses = Access.placing query ++ [.write Register.round 0] := by
  refine ((window.follows_write _ _).bind fun _ => (window.follows_writeFrom _ _).bind fun _ =>
    (window.follows_writeFrom _ _).bind fun _ => (window.follows_writeFrom _ _).bind fun _ =>
      window.follows_write _ _).mono ?_
  rintro _ _ ⟨_, _, _, rfl, rfl, _, _, _, rfl, rfl, _, _, _, rfl, rfl, _, _, _, rfl, rfl, rfl⟩
  simp only [Access.placing, List.cons_append, List.append_assoc, List.nil_append]

theorem follows_nextRound (first : Completion) (round : Nat) :
    window.Follows (window.nextRound first round) (window.recording.nextRound first round)
      fun accesses _ =>
        accesses = .write Register.round (UInt32.ofNat round) :: Access.starting first := by
  refine ((window.follows_write Register.round (UInt32.ofNat round)).bind fun _ =>
    window.follows_ring.ite (window.follows_write Register.completion 0)).mono ?_
  rintro _ _ ⟨_, _, _, rfl, rfl, starts⟩
  rw [Access.starting]
  split at starts
  next byTrusted =>
    rw [starts, if_pos byTrusted]
    rfl
  next otherwise =>
    rw [starts, if_neg otherwise]
    rfl

end Window

end NicScope
