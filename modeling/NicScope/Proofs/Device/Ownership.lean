/-
This file proves whose the device is from the moment it is claimed until it is given up. The claim
marks the doorbell as taken and clears everything in front of it; no request touches the mark or
the mask of the doorbell, however it ends; and the release takes the mark away, but only where it
finds it. A device that cannot be opened is not touched at all. The firmware is trusted in one
thing: that it leaves the mark and the mask to the host.
-/

import NicScope.Proofs.Device.Opening
import NicScope.Proofs.Device.RequestArea

namespace NicScope

open Access

variable {σ : Type}

/-! ### Marks of an owner -/

/-- The registers with which the owner of the device marks the doorbell. -/
def IsMark (register : Nat) : Prop :=
  register = Register.doorbellFlag ∨ register = Register.doorbellMask

/-- The doorbell belongs to a process. -/
structure DoorbellTaken (registers : Nat → UInt32) : Prop where
  flag : registers Register.doorbellFlag = 1
  mask : registers Register.doorbellMask = 0

/-- The doorbell belongs to nobody. -/
structure DoorbellFree (registers : Nat → UInt32) : Prop where
  flag : registers Register.doorbellFlag = 0
  mask : registers Register.doorbellMask = 1

/-- A device that does not write to the marks: they hold what the host has written there. What it
does to other registers, and when, is not said. -/
structure LeavesMarks (window : Window σ) (held : σ → Nat → UInt32) : Prop where
  shows : ∀ state, (window.read Register.doorbellFlag state).1 = held state Register.doorbellFlag
  read : ∀ state register place, IsMark place →
    held (window.read register state).2 place = held state place
  write : ∀ state register value place, IsMark place →
    held (window.write register value state).2 place =
      Function.update (held state) register value place

theorem not_isMark_of_requestArea {register : Nat} (written : RequestArea register) :
    ¬ IsMark register := by
  have data : Register.requestData + Request.maxWords ≤ Register.doorbellMask := by decide
  have behind : Register.doorbellMask ≤ Register.doorbellFlag := by decide
  rintro (rfl | rfl)
  · rcases written with inside | same | same
    · omega
    · exact absurd same (by decide)
    · exact absurd same (by decide)
  · rcases written with inside | same | same
    · omega
    · exact absurd same (by decide)
    · exact absurd same (by decide)

section Marks

variable {window : Window σ} {held : σ → Nat → UInt32} (leaves : LeavesMarks window held)

include leaves

/-- After accesses a mark holds what the host has written to it last. -/
theorem LeavesMarks.settles {accesses : List Access} {state final : σ}
    (performs : window.Performs state accesses final) {place : Nat} (mark : IsMark place)
    {registers : Nat → UInt32} (same : held state place = registers place) :
    held final place = settle registers accesses place := by
  induction accesses generalizing state registers with
  | nil =>
    obtain rfl : final = state := performs
    exact same
  | cons access later inductionHypothesis =>
    cases access with
    | read register value =>
      refine inductionHypothesis performs.2 ?_
      rw [leaves.read state register place mark, same]
    | write register value =>
      refine inductionHypothesis performs ?_
      rw [leaves.write state register value place mark, Function.update_apply,
        Function.update_apply, same]

/-- Accesses that write within the area of requests leave the marks alone. -/
theorem LeavesMarks.taken {accesses : List Access} {state final : σ}
    (performs : window.Performs state accesses final)
    (within : ∀ place value, .write place value ∈ accesses → RequestArea place)
    (taken : DoorbellTaken (held state)) : DoorbellTaken (held final) := by
  have stays {place : Nat} (mark : IsMark place) : held final place = held state place := by
    rw [leaves.settles performs mark rfl]
    refine settle_of_unwritten (fun value member => ?_) _
    exact not_isMark_of_requestArea (within place value member) mark
  exact ⟨(stays (.inl rfl)).trans taken.flag, (stays (.inr rfl)).trans taken.mask⟩

end Marks

/-! ### Claiming and giving up -/

namespace Window

variable (window : Window σ)

/-- What a claim writes. -/
def claiming (process : UInt32) : List Access :=
  [.write Register.doorbellFlag 1, .write Register.holder process,
    .write Register.doorbellMask 0] ++ writesFrom 0 (List.replicate Register.doorbell 0)

/-- The accesses of a claim. -/
def claimAccesses (process : UInt32) (state : σ) : List Access :=
  (window.recording.claim process (state, [])).2.2

/-- The accesses of a release. -/
def releaseAccesses (state : σ) : List Access :=
  (window.recording.release (state, [])).2.2

theorem claim_course (process : UInt32) (state : σ) :
    window.claimAccesses process state = claiming process ∧
      window.Performs state (claiming process) (window.claim process state).2 := by
  have follows : window.Follows (window.claim process) (window.recording.claim process)
      fun accesses _ => accesses = claiming process := by
    refine ((window.follows_write _ _).bind fun _ => (window.follows_write _ _).bind fun _ =>
      (window.follows_write _ _).bind fun _ => window.follows_writeFrom _ _).mono ?_
    rintro _ _ ⟨_, _, _, rfl, rfl, _, _, _, rfl, rfl, _, _, _, rfl, rfl, rfl⟩
    rfl
  obtain ⟨accesses, recorded, performs, rfl⟩ := follows state []
  exact ⟨congrArg (fun step => step.2.2) recorded, performs⟩

/-- A release looks at the mark; it writes only where it finds that the doorbell is taken. -/
theorem release_course (state : σ) :
    window.Performs state (window.releaseAccesses state) (window.release state).2 ∧
      window.releaseAccesses state =
        .read Register.doorbellFlag (window.read Register.doorbellFlag state).1 ::
          if (window.read Register.doorbellFlag state).1 = 1 then
            [.write Register.doorbellFlag 0, .write Register.doorbellMask 1]
          else [] := by
  have follows : window.Follows window.release window.recording.release
      fun accesses _ => ∃ flag, accesses = .read Register.doorbellFlag flag ::
        if flag = 1 then [.write Register.doorbellFlag 0, .write Register.doorbellMask 1]
        else [] := by
    refine ((window.follows_read Register.doorbellFlag).bind fun _ =>
      ((window.follows_write _ _).bind fun _ => window.follows_write _ _).ite
        (window.follows_pure ())).mono ?_
    rintro _ _ ⟨_, _, flag, rfl, rfl, rest⟩
    refine ⟨flag, ?_⟩
    split at rest
    next taken =>
      obtain ⟨_, _, _, rfl, rfl, rfl⟩ := rest
      rw [if_pos taken]
      rfl
    next free =>
      obtain ⟨rfl, _⟩ := rest
      rw [if_neg free]
      rfl
  obtain ⟨accesses, recorded, performs, flag, course⟩ := follows state []
  have same : window.releaseAccesses state = accesses := congrArg (fun step => step.2.2) recorded
  rw [same]
  refine ⟨performs, ?_⟩
  rw [course] at performs
  rw [course, performs.1]

/-- A claim writes the marks of an owner, and zero everywhere in front of the doorbell. -/
theorem settle_claiming (process : UInt32) (registers : Nat → UInt32) :
    DoorbellTaken (settle registers (claiming process)) ∧
      ∀ place, place < Register.doorbell → settle registers (claiming process) place = 0 := by
  have behind {place : Nat} (behind : Register.doorbell ≤ place) :
      settle registers (claiming process) place =
        Function.update (Function.update (Function.update registers Register.doorbellFlag 1)
          Register.holder process) Register.doorbellMask 0 place := by
    rw [claiming, settle_append, settle_writesFrom_of_outside (.inr ?_)]
    · rfl
    · rw [List.length_replicate, Nat.zero_add]
      exact behind
  refine ⟨⟨?_, ?_⟩, fun place front => ?_⟩
  · rw [behind (by decide), Function.update_of_ne (by decide), Function.update_of_ne (by decide),
      Function.update_self]
  · rw [behind (by decide), Function.update_self]
  · rw [claiming, settle_append]
    exact settle_zeros (Nat.zero_le place) (by rwa [Nat.zero_add]) _

end Window

section Owning

variable {window : Window σ} {held : σ → Nat → UInt32}

/-- A claim leaves the marks of an owner. -/
theorem LeavesMarks.taken_claim (leaves : LeavesMarks window held) (process : UInt32)
    (state : σ) : DoorbellTaken (held (window.claim process state).2) := by
  have performs := (window.claim_course process state).2
  have marks := (Window.settle_claiming process (held state)).1
  exact ⟨(leaves.settles performs (.inl rfl) rfl).trans marks.flag,
    (leaves.settles performs (.inr rfl) rfl).trans marks.mask⟩

/-- Where writes are kept, everything in front of the doorbell is clear after a claim. -/
theorem KeepsWrites.clear_claim (keeps : KeepsWrites window held) (process : UInt32) (state : σ) :
    ∀ place, place < Register.doorbell → held (window.claim process state).2 place = 0 := by
  -- The completion status is cleared last, when no later round can be named any more.
  let front := [.write Register.doorbellFlag 1, .write Register.holder process,
    .write Register.doorbellMask 0] ++ writesFrom 0 (List.replicate Register.completion 0)
  have split : Window.claiming process = front ++ [.write Register.completion 0] := rfl
  have named : settle (held state) front Register.round = 0 := by
    rw [settle_append]
    exact settle_zeros (Nat.zero_le _) (by decide) _
  have performs := (window.claim_course process state).2
  have kept : held (window.claim process state).2 =
      settle (held state) (Window.claiming process) := by
    rw [split] at performs ⊢
    refine keeps.performs_completion (fun access member => ?_) named performs
    rcases List.mem_append.mp member with marks | zeros
    · simp only [List.mem_cons, List.not_mem_nil, or_false] at marks
      rcases marks with rfl | rfl | rfl
      all_goals exact ⟨_, _, rfl, by decide, by decide⟩
    · obtain ⟨place, value, rfl, _, below⟩ := exists_of_mem_writesFrom zeros
      rw [List.length_replicate, Nat.zero_add] at below
      have rung : Register.completion < Register.doorbell := by decide
      exact ⟨place, value, rfl, by omega, by omega⟩
  rw [kept]
  exact (Window.settle_claiming process (held state)).2

/-- A release of a taken doorbell gives it up. -/
theorem LeavesMarks.free_release (leaves : LeavesMarks window held) {state : σ}
    (taken : DoorbellTaken (held state)) : DoorbellFree (held (window.release state).2) := by
  obtain ⟨performs, course⟩ := window.release_course state
  rw [course, leaves.shows, taken.flag, if_pos rfl] at performs
  refine ⟨(leaves.settles performs (.inl rfl) rfl).trans ?_,
    (leaves.settles performs (.inr rfl) rfl).trans ?_⟩
  · rw [settle, settle, settle, settle, Function.update_of_ne (by decide), Function.update_self]
  · rw [settle, settle, settle, settle, Function.update_self]

end Owning

/-! ### Requests under a claim -/

namespace Window

variable (window : Window σ) (polls : Nat)

/-- The state after requests that are sent one after another. -/
def after : List Query → σ → σ
  | [], state => state
  | query :: later, state => after later (window.request polls query state).2

theorem performs_history (queries : List Query) (state : σ) :
    window.Performs state ((window.history polls queries state).flatMap Prod.snd)
      (window.after polls queries state) := by
  induction queries generalizing state with
  | nil => rfl
  | cons query later inductionHypothesis =>
    exact performs_append (window.request_course polls query state).1 (inductionHypothesis _)

/-- However many requests there are and however they end, at no time between them and within them
do they touch the marks of the owner. -/
theorem taken_of_history {window : Window σ} {held : σ → Nat → UInt32}
    (leaves : LeavesMarks window held) {queries : List Query} {state middle : σ}
    (taken : DoorbellTaken (held state)) {before behind : List Access}
    (split : (window.history polls queries state).flatMap Prod.snd = before ++ behind)
    (performs : window.Performs state before middle) : DoorbellTaken (held middle) := by
  refine leaves.taken performs (fun register value member => ?_) taken
  have among : .write register value ∈ (window.history polls queries state).flatMap Prod.snd :=
    split ▸ List.mem_append_left behind member
  obtain ⟨⟨query, accesses⟩, step, written⟩ := List.mem_flatMap.mp among
  obtain ⟨earlier, later, place⟩ := List.append_of_mem step
  obtain ⟨start, _, rfl⟩ := exists_of_history_eq window polls place
  exact window.requestArea_of_mem_accesses polls query start written

end Window

/-! ### Devices that are not opened -/

namespace OpenDevice

/-- What is left of the attempt to open a device that cannot be opened. -/
structure LeftAlone (settings : Settings) (host : Host) (cause : Error) (after : Host) : Prop where
  /-- No register was written: whatever a write would have done, the attempt comes to the same. -/
  unwritten : ∀ window, ReadsAlike window →
    (startThrough window settings).run host = (.error cause, after)
  configures : Discovery.Configures settings host.files after.files
  margins : after.margins = host.margins
  locks : after.locks = host.locks

theorem leftAlone_of_error {settings : Settings} {host after : Host} {cause : Error}
    (failed : (start settings).run host = (.error cause, after)) :
    LeftAlone settings host cause after := by
  rcases startThrough_cases settings host with
    ⟨cause', files, records, configures, fails⟩ | ⟨_, _, _, _, _, _, _, _, _, holds⟩
  · have same := (fails FileWindow.window fun _ _ _ => rfl).symm.trans failed
    cases same
    exact ⟨fails, configures, rfl, rfl⟩
  · cases (holds FileWindow.window).symm.trans failed

end OpenDevice

/-! ### The device from its claim to its release -/

/-- At a device that leaves the marks to the host, the claim clears what is in front of the
doorbell. From then on the doorbell is taken after every access of however many requests, and the
release gives it up; where the release does not find the doorbell taken, it writes nothing. And
a device that cannot be opened is left alone. -/
theorem Window.owned_until_release {window : Window σ} {held : σ → Nat → UInt32}
    (leaves : LeavesMarks window held) :
    (∀ process state place, place < Register.doorbell →
      (∀ registers, settle registers (window.claimAccesses process state) place = 0) ∧
        (KeepsWrites window held → held (window.claim process state).2 place = 0)) ∧
    (∀ process state polls queries,
      let claimed := (window.claim process state).2
      let accesses := (window.history polls queries claimed).flatMap Prod.snd
      let asked := window.after polls queries claimed
      window.Performs claimed accesses asked ∧
        (∀ before behind middle, accesses = before ++ behind →
          window.Performs claimed before middle → DoorbellTaken (held middle)) ∧
        DoorbellFree (held (window.release asked).2)) ∧
    (∀ state, held state Register.doorbellFlag ≠ 1 →
      window.releaseAccesses state =
        [.read Register.doorbellFlag (held state Register.doorbellFlag)]) ∧
    ∀ settings host cause after, (OpenDevice.start settings).run host = (.error cause, after) →
      OpenDevice.LeftAlone settings host cause after := by
  refine ⟨fun process state place front => ⟨fun registers => ?_, fun keeps => ?_⟩,
    fun process state polls queries => ?_, fun state free => ?_, fun _ _ _ _ failed => ?_⟩
  · rw [(window.claim_course process state).1]
    exact (settle_claiming process registers).2 place front
  · exact keeps.clear_claim process state place front
  · intro claimed accesses asked
    have performs := window.performs_history polls queries claimed
    have stays (before behind : List Access) (middle : σ) (split : accesses = before ++ behind)
        (performs : window.Performs claimed before middle) : DoorbellTaken (held middle) :=
      taken_of_history polls leaves (leaves.taken_claim process state) split performs
    exact ⟨performs, stays,
      leaves.free_release (stays accesses [] asked (List.append_nil accesses).symm performs)⟩
  · rw [(window.release_course state).2, leaves.shows, if_neg free]
  · exact OpenDevice.leftAlone_of_error failed

/-! ### A device that holds a response -/

namespace HeldResponse

variable (response : HeldResponse)

/-- A round fills nothing behind the doorbell. -/
theorem fill_of_isMark (round : UInt32) (status : Completion) (registers : Nat → UInt32)
    {place : Nat} (mark : IsMark place) :
    response.fill round status registers place = registers place := by
  have behind : Register.doorbellMask ≤ place := by
    rcases mark with rfl | rfl <;> decide
  have completion : Register.completion < Register.doorbellMask := by decide
  have words : Register.responseWords < Register.doorbellMask := by decide
  have version : Register.responseVersion < Register.doorbellMask := by decide
  have data : Register.responseData + wordsPerRound ≤ Register.doorbellMask := by decide
  have short : (response.chunk round.toNat).length ≤ wordsPerRound := List.length_take_le _ _
  rw [fill, if_neg (by omega), if_neg (by omega), if_neg (by omega),
    List.getElem?_eq_none (by omega), Option.getD_none]

theorem leavesMarks_window (status : Completion) (delay : Nat) :
    LeavesMarks (response.window status delay) DeviceState.registers where
  shows device := by
    simp only [window]
    split
    · rfl
    · rw [if_neg (by decide)]
  read device register place mark := by
    simp only [window]
    split
    · rfl
    next round passed working =>
      split
      · split
        · rfl
        · exact response.fill_of_isMark round status device.registers mark
      · rfl
  write device register value place _ := by
    simp only [window]
    split <;> rfl

end HeldResponse

/-- A host with a device, in whose configuration there are these bytes. -/
def deviceHost (configuration : Bytes) : Host where
  files := ⟨[(["sys"], .directory), (["sys", "bus"], .directory),
    (["sys", "bus", "pci"], .directory), (["sys", "bus", "pci", "devices"], .directory),
    (["sys", "bus", "pci", "devices", "iep"], .directory),
    (["sys", "bus", "pci", "devices", "iep", "device"], .file 0o444 "0xa12f".toUTF8.toList),
    (["sys", "bus", "pci", "devices", "iep", "vendor"], .file 0o444 "0x19e5".toUTF8.toList),
    (["sys", "bus", "pci", "devices", "iep", "resource0"],
      .file 0o600 (List.replicate (4 * Register.count) 0)),
    (["sys", "bus", "pci", "devices", "iep", "config"], .file 0o644 configuration)], []⟩
  locks := []
  log := []
  clock := fun _ => ⟨0, 0⟩
  readings := 0
  process := 0

def deviceSettings : Settings := ⟨"logs", "locks", "sys", 0x19e5, 0xa12f, 0x30, 0, 1, 3, 0, 512⟩

/-- Hosts on which the device cannot be opened, each with what is in the configuration then:
somebody holds the device, the system does not lock its file, it does not map it, or the
configuration ends too early. -/
def guardedHosts : List (Host × Bytes) :=
  [({ deviceHost [0, 0, 0, 0, 5] with
      locks := [["sys", "bus", "pci", "devices", "iep", "resource0"]] }, [0, 0, 0, 0, 7]),
    ({ deviceHost [0, 0, 0, 0, 5] with unlockable := fun _ => some ⟨37⟩ }, [0, 0, 0, 0, 7]),
    ({ deviceHost [0, 0, 0, 0, 5] with unmapped := fun _ => some ⟨12⟩ }, [0, 0, 0, 0, 5]),
    (deviceHost [0, 0, 0, 0], [0, 0, 0, 0])]

/-- A window that holds something else is claimed, a request that is too long and one of several
rounds follow, and it is released. Before the claim a release writes nothing. A device that cannot
be opened is left alone, but for the access to its memory where only the lock is refused. -/
theorem Window.owned_until_release_twoRequests :
    let window := HeldResponse.window ⟨3, List.replicate 121 9, by decide⟩ .byManagement 2
    let device : DeviceState := ⟨fun _ => 7, none, none⟩
    let queries : List Query := [⟨⟨0, 1, 2, 3⟩, List.replicate 40 8⟩, ⟨⟨0, 1, 2, 3⟩, [4, 5]⟩]
    LeavesMarks window DeviceState.registers ∧ KeepsWrites window DeviceState.registers ∧
      (∀ place, place < Register.doorbell →
        DeviceState.registers (window.claim 5 device).2 place = 0) ∧
      DoorbellTaken (window.after 3 queries (window.claim 5 device).2).registers ∧
      DoorbellFree (window.release (window.after 3 queries (window.claim 5 device).2)).2.registers ∧
      window.releaseAccesses device = [.read Register.doorbellFlag 7] ∧
      ∀ guarded ∈ guardedHosts, ∃ cause after,
        OpenDevice.LeftAlone deviceSettings guarded.1 cause after ∧
          after.files.lookup ["sys", "bus", "pci", "devices", "iep", "config"] =
            some (.file 0o644 guarded.2) := by
  intro window device queries
  have leaves : LeavesMarks window DeviceState.registers := HeldResponse.leavesMarks_window _ _ _
  have keeps : KeepsWrites window DeviceState.registers := HeldResponse.keepsWrites_window _ _ _
  clear_value window queries
  obtain ⟨clears, owns, spares, leavesAlone⟩ := owned_until_release leaves
  obtain ⟨performs, taken, free⟩ := owns 5 device 3 queries
  refine ⟨leaves, keeps, fun place front => (clears 5 device place front).2 keeps,
    taken _ [] _ (List.append_nil _).symm performs, free, spares device (by decide), ?_⟩
  have refused : ∀ guarded ∈ guardedHosts,
      (match (OpenDevice.start deviceSettings).run guarded.1 with
        | (.error _, after) =>
          after.files.lookup ["sys", "bus", "pci", "devices", "iep", "config"] ==
            some (.file 0o644 guarded.2)
        | _ => false) = true := by decide +kernel
  intro guarded member
  have refused := refused guarded member
  rcases attempt : (OpenDevice.start deviceSettings).run guarded.1 with ⟨cause | opened, after⟩
  · rw [attempt] at refused
    exact ⟨cause, after, leavesAlone _ _ _ _ attempt, eq_of_beq refused⟩
  · rw [attempt] at refused
    cases refused

end NicScope
