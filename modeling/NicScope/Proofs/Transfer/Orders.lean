/-
This file says what it is to read one thing from the device, a blob or a table, and when a
request for a part of it fails: when an error comes in place of a response, when the response
says itself that it failed, and when the reader cannot take it, behind what was delivered
before. A failed request is the last one of its reading, and the number of the error it ends
with is that of the error that came, or that of an invalid argument.
-/

import NicScope.Proofs.Transfer.BlobReading
import NicScope.Proofs.Transfer.EntryReading
import NicScope.Proofs.Transfer.Held

namespace NicScope

open Dialogue

/-- One thing to be read from the device, a record or a list of records. The requests for its
parts are small enough to be sent. -/
inductive Order : Type → Type 1 where
  | blob {β : Type} (η ρ : Type) [BlockHead η] [Layout ρ] (name : String) (header : Header)
      (capacity : Nat) (request : UInt8 → ρ)
      (small : ∀ index, Field.totalSize (Layout.fields (request index)) ≤ 128)
      (decode : Bytes → Except DecodeError β) : Order β
  | table {β : Type} (η ρ : Type) [BlockHead η] [Layout ρ] (name : String) (header : Header)
      (paging : Paging) (request : UInt32 → ρ)
      (small : ∀ index, Field.totalSize (Layout.fields (request index)) ≤ 128)
      (decode : Nat → Bytes → Except DecodeError (List β)) : Order (List β)

/-- An error that does not break a run off, and that has this number. -/
def Error.Numbered (cause : Error) (number : Int) : Prop :=
  cause.errno = number ∧ cause.breaksOff = false

/-- What a reply brings, which is nothing if it says itself that it failed. -/
def checked (reply : Reply) : Reply :=
  reply.bind Response.check

/-- The query that a small request is sent as. -/
def queryOf {ρ : Type} [Layout ρ] (header : Header) (request : ρ) : Query :=
  ⟨header, Bytes.toWords (Layout.bytes request)⟩

/-- The pages of a table that were asked for, from `index` on, when these replies came. -/
def pagesFrom (η : Type) [BlockHead η] : UInt32 → List Reply → List (UInt32 × Reply)
  | _, [] => []
  | index, reply :: later => (index, reply) :: pagesFrom η (nextNamed η reply) later

/-- The page to be asked for behind these replies. -/
def pageBehind (η : Type) [BlockHead η] : UInt32 → List Reply → UInt32
  | index, [] => index
  | _, reply :: later => pageBehind η (nextNamed η reply) later

namespace Order

variable {β : Type}

/-- Holds the order: reads what it is about and decodes it. -/
def exchange : {β : Type} → Order β → Exchange β
  | _, blob η _ name header capacity request _ decode => do
    let payload ← Fetch.blob η name header capacity request
    Fetch.fromExcept ((decode payload).mapError .decode)
  | _, table η _ name header paging request _ decode =>
    Fetch.table η name header paging request decode

/-- A query that may be sent to hold the order. -/
def Sends : {β : Type} → Order β → Query → Prop
  | _, blob _ _ _ header _ request _ _, query => ∃ index, query = queryOf header (request index)
  | _, table _ _ _ header _ request _ _, query => ∃ index, query = queryOf header (request index)

/-- Reading all that the order is about can take these steps, and decoding it gives this. -/
def Delivers : {β : Type} → Order β → List (Query × Reply) → Except DecodeError β → Prop
  | _, blob η _ name header capacity request _ decode, steps, decoded =>
    ∃ payload, (Fetch.blob η name header capacity request).run.Held steps (.ok payload) ∧
      decode payload = decoded
  | _, table η _ name header paging request _ decode, steps, decoded =>
    ∃ entries : EntryRun,
      ((readEntries η name paging).reword fun index => query header (request index)).Held steps
        (.ok entries) ∧
      decode entries.count.toNat entries.data = decoded

/-- The reader does not take a response, behind these replies: its head cannot be read, its
size, its cursor or its count is wrong, or it carries less than it declares. -/
def Rejects : {β : Type} → Order β → List Reply → Response → Prop
  | _, blob η _ name _ capacity _ _ _, earlier, response =>
    ∃ cause, Refused η name (capacity - (carriedBy η (earlier.map checked)).length)
      (.ok response) cause
  | _, table η _ name _ paging _ _ _, earlier, response =>
    ∃ run cause,
      EntryRun.acceptAll η name paging (pagesFrom η paging.start (earlier.map checked)) .empty =
          .ok run ∧
        Rejected η name paging (pageBehind η paging.start (earlier.map checked)) run
          (.ok response) cause

/-- A request fails with a reply, behind these, and the failure has this number. An error that
comes in place of a response never breaks a run off. -/
inductive Fails (order : Order β) (earlier : List Reply) : Reply → Int → Prop
  | unanswered {cause : Error} (told : cause.breaksOff = false) :
      Fails order earlier (.error cause) cause.errno
  | unsuccessful {response : Response} (status : response.status ≠ 0) :
      Fails order earlier (.ok response) (-22)
  | rejected {response : Response} (status : response.status = 0)
      (rejects : order.Rejects earlier response) : Fails order earlier (.ok response) (-22)

end Order

/-! ### Exchanges -/

theorem Exchange.held_bind {α β : Type} {first : Exchange α} {next : α → Exchange β}
    {steps : List (Query × Reply)} {result : Except Error β}
    (held : (first >>= next).run.Held steps result) :
    (∃ cause, first.run.Held steps (.error cause) ∧ result = .error cause) ∨
      ∃ before later given, steps = before ++ later ∧ first.run.Held before (.ok given) ∧
        (next given).run.Held later result := by
  obtain ⟨before, later, given, rfl, reads, rest⟩ := Held.of_bind held
  cases given with
  | error cause =>
    cases rest with
    | done =>
      rw [List.append_nil]
      exact .inl ⟨cause, reads, rfl⟩
  | ok given => exact .inr ⟨before, later, given, rfl, reads, rest⟩

theorem Exchange.held_fromExcept {α β : Type} {first : Exchange α} {next : α → Except Error β}
    {steps : List (Query × Reply)} {result : Except Error β}
    (held : (first >>= fun given => Fetch.fromExcept (next given)).run.Held steps result) :
    ∃ given, first.run.Held steps given ∧ result = given.bind next := by
  rcases held_bind held with ⟨cause, reads, rfl⟩ | ⟨before, later, given, rfl, reads, rest⟩
  · exact ⟨.error cause, reads, rfl⟩
  · cases rest with
    | done =>
      rw [List.append_nil]
      exact ⟨.ok given, reads, rfl⟩

section Requests

variable {ρ : Type} [Layout ρ]

/-- A small request is sent, and its reply is checked. -/
theorem query_of_small {request : ρ} (small : Field.totalSize (Layout.fields request) ≤ 128)
    (header : Header) :
    query header request = .ask (queryOf header request) fun reply => .done (checked reply) := by
  have encoded := Request.encode_of_le request small
  rw [Request.encode] at encoded
  rw [query, queryFields, encoded]
  rfl

theorem block_of_small {request : UInt8 → ρ}
    (small : ∀ index, Field.totalSize (Layout.fields (request index)) ≤ 128) (header : Header)
    (index : UInt8) :
    Fetch.block header request index = .ask (queryOf header (request index)) fun reply =>
      .done ((checked reply).mapError (.blockFailed index.toUInt32)) := by
  rw [Fetch.block, query_of_small (small index)]
  rfl

end Requests

/-! ### Readers -/

section Readers

variable {η : Type} [BlockHead η] {name : String}

theorem blobReading_of_held {capacity : Nat} {steps : List (UInt8 × Reply)}
    {outcome : Except Error Bytes} (held : (readBlocks η name capacity).Held steps outcome) :
    BlobReading η name capacity (steps.map Prod.fst) (steps.map Prod.snd) outcome := by
  obtain ⟨transcript, result⟩ := held.recited (.error .unknownDevice)
  obtain ⟨first, later, ended, asked, course, ends⟩ := @readBlocks_course η _ name capacity
    (List Reply) (reciting (.error .unknownDevice)) (fun _ answers => answers)
    (steps.map Prod.snd)
  rw [transcript] at asked
  rw [result] at ends
  rw [asked]
  exact blobReading_of_course course ends

theorem entryCourse_of_held {paging : Paging} {steps : List (UInt32 × Reply)}
    {outcome : Except Error EntryRun} (held : (readEntries η name paging).Held steps outcome)
    (asked : steps ≠ []) : EntryCourse η name paging paging.start .empty steps outcome := by
  obtain ⟨transcript, result⟩ := held.recited (.error .unknownDevice)
  have sized : ¬ paging.Overflows := by
    intro overflows
    have none := (readEntries_of_overflows (η := η) (reciting (.error .unknownDevice))
      (fun _ answers => answers) name overflows (steps.map Prod.snd)).1
    exact asked (transcript.symm.trans none)
  have course := readEntries_course (η := η) (reciting (.error .unknownDevice))
    (fun _ answers => answers) name sized (steps.map Prod.snd)
  rw [transcript, result] at course
  exact course

/-- The pages of a course are the ones that the replies ask for. -/
theorem EntryCourse.pagesFrom_eq {paging : Paging} {index : UInt32} {run : EntryRun}
    {steps : List (UInt32 × Reply)} {result : Except Error EntryRun}
    (course : EntryCourse η name paging index run steps result) :
    steps = pagesFrom η index (steps.map Prod.snd) := by
  induction course with
  | finished | rejected | brokenOff | alone => rfl
  | taken _ _ _ _ _ inductionHypothesis =>
    rw [List.map_cons, pagesFrom, ← inductionHypothesis]

theorem length_pagesFrom (index : UInt32) (replies : List Reply) :
    (pagesFrom η index replies).length = replies.length := by
  induction replies generalizing index with
  | nil => rfl
  | cons reply later inductionHypothesis =>
    rw [pagesFrom, List.length_cons, List.length_cons, inductionHypothesis]

theorem pagesFrom_append (index : UInt32) (earlier later : List Reply) :
    pagesFrom η index (earlier ++ later) =
      pagesFrom η index earlier ++ pagesFrom η (pageBehind η index earlier) later := by
  induction earlier generalizing index with
  | nil => rfl
  | cons reply rest inductionHypothesis =>
    rw [List.cons_append, pagesFrom, inductionHypothesis]
    rfl

/-- The pages in front of a step of a course, and the page of the step itself. -/
theorem EntryCourse.pages {paging : Paging} {start index : UInt32} {run : EntryRun}
    {before behind : List (UInt32 × Reply)} {reply : Reply} {result : Except Error EntryRun}
    (course : EntryCourse η name paging start run (before ++ (index, reply) :: behind) result) :
    before = pagesFrom η start (before.map Prod.snd) ∧
      index = pageBehind η start (before.map Prod.snd) := by
  have pages := course.pagesFrom_eq
  rw [List.map_append, pagesFrom_append, List.map_cons, pagesFrom] at pages
  obtain ⟨front, rest⟩ := List.append_inj pages (by rw [length_pagesFrom, List.length_map])
  obtain ⟨here, _⟩ := List.cons.inj rest
  exact ⟨front, congrArg Prod.fst here⟩

section Fetched

variable {ρ : Type} [Layout ρ] {header : Header} {steps : List (Query × Reply)}

/-- A blob is fetched as it is read, one request for each block. -/
theorem blob_of_held {capacity : Nat} {request : UInt8 → ρ}
    (small : ∀ index, Field.totalSize (Layout.fields (request index)) ≤ 128)
    {payload : Except Error Bytes}
    (held : (Fetch.blob η name header capacity request).run.Held steps payload) :
    ∃ (asked : List (UInt8 × Reply)) (outcome : Except Error Bytes),
      steps = asked.map (fun step => (queryOf header (request step.1), step.2)) ∧
        BlobReading η name capacity (asked.map Prod.fst)
          (asked.map fun step => (checked step.2).mapError (.blockFailed step.1.toUInt32))
          outcome ∧
        payload = outcome.map (Bytes.resize capacity) := by
  obtain ⟨outcome, blocks, rfl⟩ := Held.of_bind_done held
  obtain ⟨asked, rfl, inner⟩ := Held.of_reword (block_of_small small header) blocks
  have reading := blobReading_of_held inner
  rw [List.map_map, List.map_map] at reading
  exact ⟨asked, outcome, rfl, reading, rfl⟩

/-- The entries of a table are fetched as they are read, one request for each page. -/
theorem entries_of_held {paging : Paging} {request : UInt32 → ρ}
    (small : ∀ index, Field.totalSize (Layout.fields (request index)) ≤ 128)
    {entries : Except Error EntryRun}
    (held : ((readEntries η name paging).reword fun index => query header (request index)).Held
      steps entries) :
    ∃ asked : List (UInt32 × Reply),
      steps = asked.map (fun step => (queryOf header (request step.1), step.2)) ∧
        (asked ≠ [] → EntryCourse η name paging paging.start .empty
          (asked.map fun step => (step.1, checked step.2)) entries) := by
  obtain ⟨asked, split, inner⟩ := Held.of_reword (fun index => query_of_small (small index) header)
    held
  exact ⟨asked, split, fun some => entryCourse_of_held inner (by simpa using some)⟩

end Fetched

theorem Refused.numbered {room : Nat} {response : Response} {cause : Error}
    (refused : Refused η name room (.ok response) cause) : cause.Numbered (-22) := by
  cases refused with
  | unreadable | oversized | truncated => exact ⟨rfl, rfl⟩

theorem Rejected.numbered {paging : Paging} {index : UInt32} {run : EntryRun}
    {response : Response} {cause : Error}
    (rejected : Rejected η name paging index run (.ok response) cause) : cause.Numbered (-22) := by
  cases rejected with
  | refused reason => exact reason.numbered
  | stalled | overflowing => exact ⟨rfl, rfl⟩

/-- What replies carry does not depend on how an error among them is told. -/
theorem carriedBy_heard {ι : Type} (wrap : ι → Error → Error) (asked : List (ι × Reply)) :
    carriedBy η (asked.map fun step => (checked step.2).mapError (wrap step.1)) =
      carriedBy η ((asked.map Prod.snd).map checked) := by
  rw [carriedBy, carriedBy, List.flatMap_map, List.map_map, List.flatMap_map]
  refine List.flatMap_congr fun step _ => ?_
  rw [Function.comp_apply]
  cases checked step.2 with
  | error cause => rfl
  | ok response => rfl

end Readers

/-! ### A failed request -/

namespace Order

variable {β : Type} {order : Order β} {reply : Reply} {number : Int}

/-- A failed request brings an error with its number, or a response that the reader does not
take. -/
theorem Fails.brings {earlier : List Reply} (fails : order.Fails earlier reply number) :
    (∃ cause, checked reply = .error cause ∧ cause.Numbered number) ∨
      ∃ response, checked reply = .ok response ∧ order.Rejects earlier response ∧
        number = -22 := by
  cases fails with
  | @unanswered cause told => exact .inl ⟨cause, rfl, rfl, told⟩
  | @unsuccessful response status =>
    refine .inl ⟨.status response.status, ?_, rfl, rfl⟩
    rw [checked, Except.bind, Response.check, if_neg status]
  | @rejected response status rejects =>
    refine .inr ⟨response, ?_, rejects, rfl⟩
    rw [checked, Except.bind, Response.check, if_pos status]

/-- Where one of some questions, put into other words, is found among the steps. -/
theorem exists_of_map_eq {ι : Type} (words : ι → Query) {asked : List (ι × Reply)}
    {earlier later : List (Query × Reply)} {query : Query}
    (split : earlier ++ (query, reply) :: later =
      asked.map fun step => (words step.1, step.2)) :
    ∃ before index behind, asked = before ++ (index, reply) :: behind ∧
      earlier.map Prod.snd = before.map Prod.snd ∧ later.length = behind.length := by
  obtain ⟨before, found, rfl, rfl, rest⟩ := List.map_eq_append_iff.mp split.symm
  obtain ⟨⟨index, given⟩, behind, rfl, same, rfl⟩ := List.map_eq_cons_iff.mp rest
  cases same
  refine ⟨before, index, behind, rfl, ?_, List.length_map _⟩
  rw [List.map_map]
  rfl

section Ends

variable {η ρ : Type} [BlockHead η] [Layout ρ] {name : String} {header : Header}
  {earlier later : List (Query × Reply)} {query : Query}

/-- A failed request for a block is the last one, and the reading ends with its number. -/
theorem blob_ends {capacity : Nat} {request : UInt8 → ρ}
    {small : ∀ index, Field.totalSize (Layout.fields (request index)) ≤ 128}
    {decode : Bytes → Except DecodeError β} {payload : Except Error Bytes}
    (held : (Fetch.blob η name header capacity request).run.Held
      (earlier ++ (query, reply) :: later) payload)
    (fails : (blob η ρ name header capacity request small decode).Fails
      (earlier.map Prod.snd) reply number) :
    later = [] ∧ ∃ cause, payload = .error cause ∧ cause.Numbered number := by
  obtain ⟨asked, outcome, split, reading, rfl⟩ := blob_of_held small held
  obtain ⟨before, index, behind, rfl, same, length⟩ :=
    exists_of_map_eq (fun index => queryOf header (request index)) split
  have refused : ∃ cause, Refused η name (roomAt η capacity
        ((before ++ (index, reply) :: behind).map fun step =>
          (checked step.2).mapError (.blockFailed step.1.toUInt32)) before.length)
      ((checked reply).mapError (.blockFailed index.toUInt32)) cause ∧
      cause.Numbered number := by
    rcases fails.brings with ⟨cause, heard, told⟩ | ⟨response, heard, ⟨cause, refused⟩, rfl⟩
    · rw [heard]
      exact ⟨.blockFailed index.toUInt32 cause, .unfetched _, told⟩
    · rw [heard, roomAt, List.map_append, List.take_left' (List.length_map _),
        carriedBy_heard fun index : UInt8 => .blockFailed index.toUInt32]
      rw [same] at refused
      exact ⟨cause, refused, refused.numbered⟩
  obtain ⟨cause, refused, told⟩ := refused
  obtain ⟨last, rfl⟩ := ends_of_refused reading.continues reading.fails (by simp) refused
  refine ⟨List.length_eq_zero_iff.mp ?_, cause, rfl, told⟩
  rw [List.length_map, List.length_append, List.length_cons] at last
  omega

/-- A failed request for a page is the last one, and the reading ends with its number. -/
theorem table_ends {paging : Paging} {request : UInt32 → ρ}
    {small : ∀ index, Field.totalSize (Layout.fields (request index)) ≤ 128}
    {decode : Nat → Bytes → Except DecodeError (List β)} {entries : Except Error EntryRun}
    (held : ((readEntries η name paging).reword fun index =>
      NicScope.query header (request index)).Held (earlier ++ (query, reply) :: later) entries)
    (fails : (table η ρ name header paging request small decode).Fails
      (earlier.map Prod.snd) reply number) :
    later = [] ∧ ∃ cause, entries = .error cause ∧ cause.Numbered number := by
  obtain ⟨asked, split, course⟩ := entries_of_held small held
  obtain ⟨before, index, behind, rfl, same, length⟩ :=
    exists_of_map_eq (fun index => queryOf header (request index)) split
  replace course := course (by simp)
  rw [List.map_append, List.map_cons] at course
  have brought : (before.map fun step => (step.1, checked step.2)).map Prod.snd =
      (earlier.map Prod.snd).map checked := by
    rw [same, List.map_map, List.map_map]
    rfl
  obtain ⟨pages, page⟩ := course.pages
  rw [brought] at pages page
  obtain ⟨run, accepted⟩ := course.accepted
    (before.map fun step => (step.1, checked step.2)).length (by simp)
  rw [List.take_left] at accepted
  have rejected : ∃ cause, Rejected η name paging index run (checked reply) cause ∧
      cause.Numbered number := by
    rcases fails.brings with
      ⟨cause, heard, told⟩ | ⟨response, heard, ⟨taken, cause, again, rejected⟩, rfl⟩
    · rw [heard]
      exact ⟨cause, .refused (.unfetched cause), told⟩
    · rw [heard]
      rw [← page] at rejected
      rw [← pages, accepted] at again
      cases again
      exact ⟨cause, rejected, rejected.numbered⟩
  obtain ⟨cause, rejected, told⟩ := rejected
  obtain ⟨last, rfl⟩ :=
    course.ends (k := before.length) (by simp) (by simpa using accepted) rejected
  refine ⟨List.length_eq_zero_iff.mp ?_, cause, rfl, told⟩
  rw [List.length_append, List.length_cons, List.length_map, List.length_map] at last
  omega

end Ends

/-- A failed request is the last one, and the reading ends with its number. -/
theorem ends_of_fails {earlier later : List (Query × Reply)} {query : Query}
    {result : Except Error β}
    (held : order.exchange.run.Held (earlier ++ (query, reply) :: later) result)
    (fails : order.Fails (earlier.map Prod.snd) reply number) :
    later = [] ∧ ∃ cause, result = .error cause ∧ cause.Numbered number := by
  cases order with
  | blob =>
    obtain ⟨payload, fetched, rfl⟩ := Exchange.held_fromExcept held
    obtain ⟨last, cause, rfl, same⟩ := blob_ends fetched fails
    exact ⟨last, cause, rfl, same⟩
  | table =>
    obtain ⟨entries, fetched, rfl⟩ := Exchange.held_fromExcept held
    obtain ⟨last, cause, rfl, same⟩ := table_ends fetched fails
    exact ⟨last, cause, rfl, same⟩

/-- Only queries of the order are sent. -/
theorem sends_of_held {steps : List (Query × Reply)} {result : Except Error β}
    (held : order.exchange.run.Held steps result) : ∀ step ∈ steps, order.Sends step.1 := by
  cases order with
  | blob η ρ name header capacity request small decode =>
    obtain ⟨payload, fetched, _⟩ := Exchange.held_fromExcept held
    obtain ⟨asked, _, rfl, _⟩ := blob_of_held small fetched
    intro step member
    obtain ⟨⟨index, reply⟩, _, rfl⟩ := List.mem_map.mp member
    exact ⟨index, rfl⟩
  | table η ρ name header paging request small decode =>
    obtain ⟨entries, fetched, _⟩ := Exchange.held_fromExcept held
    obtain ⟨asked, rfl, _⟩ := entries_of_held small fetched
    intro step member
    obtain ⟨⟨index, reply⟩, _, rfl⟩ := List.mem_map.mp member
    exact ⟨index, rfl⟩

/-- Where all of an order is delivered, it ends with what decoding gives. -/
theorem ends_of_delivers {steps : List (Query × Reply)} {decoded : Except DecodeError β}
    {result : Except Error β} (held : order.exchange.run.Held steps result)
    (delivers : order.Delivers steps decoded) : result = decoded.mapError .decode := by
  cases order with
  | blob =>
    obtain ⟨given, fetched, rfl⟩ := Exchange.held_fromExcept held
    obtain ⟨payload, whole, rfl⟩ := delivers
    rw [fetched.unique whole]
    rfl
  | table =>
    obtain ⟨given, fetched, rfl⟩ := Exchange.held_fromExcept held
    obtain ⟨entries, whole, rfl⟩ := delivers
    rw [Held.unique fetched whole]
    rfl

end Order

end NicScope
