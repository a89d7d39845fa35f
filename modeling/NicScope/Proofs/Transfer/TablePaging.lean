/-
This file proves that a table comes back unchanged however it is paged. A page holds
whole entries, any number of them, with anything behind them in its block, and names
the entry to ask for next. Since entries land where the count says and not where blocks
end, what is kept is the entries alone, one after another; parsed, they give one record
each, which no longer tells how they were paged.
-/

import Mathlib.Data.List.Forall2
import NicScope.Proofs.Tables.Records
import NicScope.Proofs.Transfer.EntryReading
import NicScope.Transfer.Fetch
import NicScope.Transfer.Scripted

namespace NicScope

open Dialogue

/-! ### Pages -/

/-- Entries that come in one block, what fills the block up behind them, and the entry to
ask for next. -/
structure Page where
  entries : List Bytes
  padding : Bytes
  next : UInt32
  deriving DecidableEq, Repr

/-- The bytes of the block of a page. -/
def Page.block (page : Page) : Bytes :=
  page.entries.flatten ++ page.padding

/-- The entries that pages are asked for by, the first of which is `index`. -/
def pageStarts : UInt32 → List Page → List UInt32
  | _, [] => []
  | index, page :: later => index :: pageStarts page.next later

theorem length_pageStarts (index : UInt32) (pages : List Page) :
    (pageStarts index pages).length = pages.length := by
  induction pages generalizing index with
  | nil => rfl
  | cons page later inductionHypothesis =>
    rw [pageStarts, List.length_cons, List.length_cons, inductionHypothesis]

variable (η : Type) [BlockHead η]

/-- A reply that carries the block of a page and counts its entries. -/
def Page.Framed (page : Page) (reply : Reply) : Prop :=
  ∃ head, CarriesBlock η page.block reply head ∧ BlockHead.nextEntry head = page.next ∧
    (BlockHead.entryCount head).toNat = page.entries.length

/-- Pages that make up `table` from the entry `index` on, behind `count` entries: their
cursors advance to the end of the table, their blocks are small enough, and they hold
whole entries, no more than the table has. -/
inductive Paged (paging : Paging) : UInt32 → Nat → List Page → List Bytes → Prop
  | finished {index : UInt32} {count : Nat} (beyond : ¬ index < paging.entries) :
      Paged paging index count [] []
  | page {index : UInt32} {count : Nat} {page : Page} {table : List Bytes} {later : List Page}
      (inside : index < paging.entries) (advances : index < page.next)
      (whole : ∀ entry ∈ page.entries, entry.length = paging.entrySize)
      (inBlock : page.block.length ≤ BlockHead.maxBlockSize η)
      (inRoom : page.block.length ≤ (paging.entries.toNat - count) * paging.entrySize)
      (inTable : count + page.entries.length ≤ paging.entries.toNat)
      (rest : Paged paging page.next (count + page.entries.length) later table) :
      Paged paging index count (page :: later) (page.entries ++ table)

variable {η} {paging : Paging} {index : UInt32} {run : EntryRun} {count : Nat} {page : Page}
  {reply : Reply} {table : List Bytes} {pages : List Page}

theorem Paged.whole (paged : Paged η paging index count pages table) :
    ∀ entry ∈ table, entry.length = paging.entrySize := by
  induction paged with
  | finished => exact fun _ member => absurd member List.not_mem_nil
  | page _ _ whole _ _ _ _ inductionHypothesis =>
    intro entry member
    rcases List.mem_append.mp member with here | later
    · exact whole entry here
    · exact inductionHypothesis entry later

theorem Paged.length_le (paged : Paged η paging index count pages table)
    (within : count ≤ paging.entries.toNat) : count + table.length ≤ paging.entries.toNat := by
  induction paged with
  | finished => exact within
  | page _ _ _ _ _ inTable _ inductionHypothesis =>
    rw [List.length_append, ← Nat.add_assoc]
    exact inductionHypothesis inTable

/-- There are no more entries than can be counted. -/
theorem Paged.toNat_length {entries : UInt32} {entrySize : Nat}
    (paged : Paged η (.all entries entrySize) index 0 pages table) :
    (UInt32.ofNat table.length).toNat = table.length := by
  have within := paged.length_le (Nat.zero_le _)
  rw [Nat.zero_add] at within
  exact UInt32.toNat_ofNat_of_lt' (Nat.lt_of_le_of_lt within entries.toNat_lt)

/-- Entries that come in a block are small. -/
theorem Paged.entrySize_lt {replies : List Reply} (paged : Paged η paging index count pages table)
    (framed : List.Forall₂ (Page.Framed η) pages replies) (filled : table ≠ []) :
    paging.entrySize < 2 ^ 8 := by
  induction paged generalizing replies with
  | finished => exact absurd rfl filled
  | @page index count page table later _ _ whole _ _ _ _ inductionHypothesis =>
    obtain ⟨reply, others, ⟨head, ⟨_, _, _, _, declared⟩, _⟩, framedLater, rfl⟩ :=
      List.forall₂_cons_left_iff.mp framed
    cases here : page.entries with
    | nil =>
      rw [here, List.nil_append] at filled
      exact inductionHypothesis framedLater filled
    | cons entry entries =>
      have size := whole entry (here ▸ List.mem_cons_self)
      have small := (BlockHead.blockSize head).toNat_lt
      rw [declaredSize, Page.block, here, List.flatten_cons, List.length_append,
        List.length_append] at declared
      omega

/-- So the size of a table with entries can be calculated. -/
theorem Paged.countable {replies : List Reply} (paged : Paged η paging index count pages table)
    (framed : List.Forall₂ (Page.Framed η) pages replies)
    (sized : table = [] → paging.Countable) : paging.Countable := by
  by_cases filled : table = []
  · exact sized filled
  · have small := paged.entrySize_lt framed filled
    exact Nat.lt_of_le_of_lt
      (Nat.mul_le_mul (Nat.le_of_lt paging.entries.toNat_lt) (Nat.le_of_lt small)) (by decide)

/-! ### Taking pages in -/

section Framed

variable [LawfulLayout η]

namespace Page.Framed

theorem nextNamed (framed : page.Framed η reply) : nextNamed η reply = page.next := by
  obtain ⟨head, carries, next, _⟩ := framed
  rw [carries.nextNamed, next]

theorem entriesCounted (framed : page.Framed η reply) :
    (entriesCounted η reply).toNat = page.entries.length := by
  obtain ⟨head, carries, _, counted⟩ := framed
  rw [carries.entriesCounted, counted]

theorem toNat_countWith (framed : page.Framed η reply)
    (small : run.count.toNat + page.entries.length < UInt32.size) :
    (run.countWith η reply).toNat = run.count.toNat + page.entries.length := by
  rw [EntryRun.countWith, toNat_saturatingAdd, framed.entriesCounted]
  omega

/-- The entries of a page follow those that were kept before, without what fills its block. -/
theorem data_extended (framed : page.Framed η reply)
    (whole : ∀ entry ∈ page.entries, entry.length = paging.entrySize)
    (aligned : run.data.length = run.count.toNat * paging.entrySize) :
    (run.extended η paging reply).data = run.data ++ page.entries.flatten := by
  have counted := framed.entriesCounted
  obtain ⟨head, carries, _⟩ := framed
  rw [EntryRun.extended, counted, carries.payloadOf, ← length_flatten_of_whole whole, ← aligned]
  exact EntryRun.place_append _ _ _

theorem taken (framed : page.Framed η reply) (advances : index < page.next)
    (inBlock : page.block.length ≤ BlockHead.maxBlockSize η)
    (inRoom : page.block.length ≤ run.room paging)
    (inTable : run.count.toNat + page.entries.length ≤ paging.entries.toNat) :
    Taken η paging index run reply where
  fits := by
    obtain ⟨head, carries, _⟩ := framed
    exact carries.fits inRoom inBlock
  advances := by rwa [framed.nextNamed]
  within := by
    rw [UInt32.le_iff_toNat_le,
      framed.toNat_countWith (Nat.lt_of_le_of_lt inTable paging.entries.toNat_lt)]
    exact inTable

end Page.Framed

/-- Framed pages of a table are read to its end, and their entries kept. -/
theorem Paged.course (name : String) (more : paging.single = false)
    (countable : paging.Countable) (paged : Paged η paging index count pages table)
    (counted : run.count.toNat = count)
    (aligned : run.data.length = count * paging.entrySize) {replies : List Reply}
    (framed : List.Forall₂ (Page.Framed η) pages replies) :
    ∃ last : EntryRun,
      EntryCourse η name paging index run ((pageStarts index pages).zip replies) (.ok last) ∧
      last.count.toNat = count + table.length ∧ last.data = run.data ++ table.flatten := by
  induction paged generalizing run replies with
  | finished beyond =>
    exact ⟨run, .finished beyond, counted, (List.append_nil _).symm⟩
  | @page index count page table later inside advances whole inBlock inRoom inTable _
      inductionHypothesis =>
    obtain ⟨reply, others, frames, framedLater, rfl⟩ := List.forall₂_cons_left_iff.mp framed
    subst counted
    have data := frames.data_extended whole aligned
    have total := frames.toNat_countWith
      (Nat.lt_of_le_of_lt inTable paging.entries.toNat_lt)
    have length : (run.extended η paging reply).data.length =
        (run.count.toNat + page.entries.length) * paging.entrySize := by
      rw [data, List.length_append, aligned, length_flatten_of_whole whole, Nat.add_mul]
    obtain ⟨last, course, sum, bytes⟩ := inductionHypothesis total length framedLater
    refine ⟨last, ?_, ?_, ?_⟩
    · have narrow := EntryRun.sizeWith_lt η countable (frames.entriesCounted ▸ inTable)
      rw [← frames.nextNamed] at course
      rw [pageStarts, List.zip_cons_cons]
      rw [← frames.nextNamed]
      exact .taken inside (frames.taken advances inBlock inRoom inTable) narrow more course
    · rw [sum, List.length_append, Nat.add_assoc]
    · rw [bytes, data, List.flatten_append, List.append_assoc]

/-- Framed pages of a whole table give its entries. -/
theorem Paged.result_readEntries (name : String) {entries : UInt32} {entrySize : Nat}
    (paged : Paged η (.all entries entrySize) 0 0 pages table) {σ : Type}
    (fetch : UInt32 → σ → Reply × σ) (log : LogRecord → σ → σ) (state : σ)
    (framed : List.Forall₂ (Page.Framed η) pages
      (answersTo fetch (pageStarts 0 pages) state))
    (sized : table = [] → (Paging.all entries entrySize).Countable) :
    (readEntries η name (.all entries entrySize)).result fetch log state =
      .ok ⟨table.flatten, UInt32.ofNat table.length⟩ := by
  have countable := paged.countable framed sized
  have start : EntryRun.empty.count.toNat = 0 := rfl
  obtain ⟨⟨data, count⟩, course, sum, bytes⟩ :=
    paged.course name rfl countable start (Nat.zero_mul _).symm framed
  obtain rfl : data = table.flatten := bytes
  obtain rfl : count = UInt32.ofNat table.length := by
    rw [← UInt32.toNat_inj, sum, paged.toNat_length, Nat.zero_add]
  have same : (pageStarts 0 pages).length =
      (answersTo fetch (pageStarts 0 pages) state).length := by
    rw [length_pageStarts, framed.length_eq]
  refine (readEntriesFrom_of_course fetch log countable course state ?_).2
  rw [List.map_fst_zip (Nat.le_of_eq same), List.map_snd_zip (Nat.le_of_eq same.symm)]

end Framed

/-! ### Fetching a table -/

/-- A table is fetched by reading its entries, each page by a query of its own, and parsing
what was kept. -/
theorem result_table {σ ρ α : Type} [Layout ρ] {name : String} {header : Header}
    {request : UInt32 → ρ} {parse : Nat → Bytes → Except DecodeError (List α)}
    (channel : Query → σ → Reply × σ) (log : LogRecord → σ → σ) (state : σ) :
    (Fetch.table η name header paging request parse).run.result channel log state =
      ((readEntries η name paging).result
        (fun index => (query header (request index)).run channel log) log state).bind
          fun run => (parse run.count.toNat run.data).mapError .decode := by
  change (((readEntries η name paging).reword _).bind _).result channel log state = _
  rw [result_bind, result_reword]
  cases (readEntries η name paging).result
    (fun index => (query header (request index)).run channel log) log state with
  | error cause => rfl
  | ok run => rfl

/-! ### However it is paged -/

/-- However the entries of a table are paged, they are read back, are parsed one by one, and
come to one record each. Pages without any entry do not show how large one is, so there it
has to be said that the size of the whole table can be calculated. -/
theorem readEntries_of_paged (η : Type) [BlockHead η] [LawfulLayout η] (name : String)
    {entries : UInt32} {entrySize : Nat} {table : List Bytes} {pages : List Page}
    (paged : Paged η (.all entries entrySize) 0 0 pages table)
    (sized : table = [] → (Paging.all entries entrySize).Countable) :
    ∃ run : EntryRun, run.count.toNat = table.length ∧ run.data = table.flatten ∧
      (∀ {σ : Type} (fetch : UInt32 → σ → Reply × σ) (log : LogRecord → σ → σ) (state : σ),
        List.Forall₂ (Page.Framed η) pages (answersTo fetch (pageStarts 0 pages) state) →
        (readEntries η name (.all entries entrySize)).result fetch log state = .ok run) ∧
      (∀ {σ ρ α : Type} [Layout ρ] (header : Header) (request : UInt32 → ρ)
          (parse : Nat → Bytes → Except DecodeError (List α)) (channel : Query → σ → Reply × σ)
          (log : LogRecord → σ → σ) (state : σ),
        List.Forall₂ (Page.Framed η) pages (answersTo
          (fun index => (query header (request index)).run channel log)
          (pageStarts 0 pages) state) →
        (Fetch.table η name header (.all entries entrySize) request parse).run.result channel log
          state = (parse run.count.toNat run.data).mapError .decode) ∧
      (∀ (α : Type) [Record α], Record.size α = entrySize →
        Record.parseMany (α := α) run.count.toNat run.data = table.mapM Record.parse) ∧
      (∀ (α : Type) [Record α] [FixedRecord α], Record.size α = entrySize →
        ∃ records : List α, Record.parseMany run.count.toNat run.data = .ok records ∧
          table.map Record.parse = records.map .ok) ∧
      (∀ keyBytes, Rule.headSize + 2 * keyBytes = entrySize →
        ∃ rules, Rule.parseMany keyBytes run.count.toNat run.data = .ok rules ∧
          table.map (Rule.parse keyBytes) = rules.map .ok) := by
  have whole := paged.whole
  have count := paged.toNat_length
  refine ⟨⟨table.flatten, UInt32.ofNat table.length⟩, count, rfl,
    fun fetch log state framed => paged.result_readEntries name fetch log state framed sized,
    ?_, ?_, ?_, ?_⟩
  · intro σ ρ α layout header request parse channel log state framed
    rw [result_table, paged.result_readEntries name _ log state framed sized, Except.bind]
  · rintro α record rfl
    rw [count]
    exact Record.parseMany_flatten whole
  · rintro α record fixed rfl
    rw [count]
    exact FixedRecord.exists_parseMany whole
  · rintro keyBytes rfl
    rw [count]
    exact Rule.exists_parseMany keyBytes whole

/-- Two entries in three pages: one behind which the block is filled up, one without
entries, and one that is full. -/
def vlanPages : List Page :=
  [⟨[[1, 0, 2, 0]], [9, 9, 9, 9], 1⟩, ⟨[], [], 2⟩, ⟨[[3, 0, 4, 0]], [], 3⟩]

def vlanReplies : List Reply :=
  [.ok ⟨0, 0, [0x00000801, 1, 1, 0x00020001, 0x09090909]⟩, .ok ⟨0, 0, [1, 2, 0]⟩,
    .ok ⟨0, 0, [0x00000401, 3, 1, 0x00040003]⟩]

theorem paged_vlanPages :
    Paged EntryHead (.all 3 4) 0 0 vlanPages [[1, 0, 2, 0], [3, 0, 4, 0]] :=
  .page (by decide) (by decide) (by decide) (by decide) (by decide) (by decide)
    (.page (by decide) (by decide) (by decide) (by decide) (by decide) (by decide)
      (.page (by decide) (by decide) (by decide) (by decide) (by decide) (by decide)
        (.finished (by decide))))

theorem framed_vlanPages : List.Forall₂ (Page.Framed EntryHead) vlanPages vlanReplies :=
  .cons ⟨⟨1, 8, 0, 1, 1⟩, ⟨_, [], rfl, by decide, rfl⟩, rfl, rfl⟩
    (.cons ⟨⟨1, 0, 0, 2, 0⟩, ⟨_, [], rfl, by decide, rfl⟩, rfl, rfl⟩
      (.cons ⟨⟨1, 4, 0, 3, 1⟩, ⟨_, [], rfl, by decide, rfl⟩, rfl, rfl⟩ .nil))

theorem readEntries_vlanPages :
    (readEntries EntryHead "vlan" (.all 3 4)).result ScriptedReplies.answer
        (fun _ script => script) ⟨vlanReplies, []⟩ = .ok ⟨[1, 0, 2, 0, 3, 0, 4, 0], 2⟩ ∧
      Record.parseMany 2 [1, 0, 2, 0, 3, 0, 4, 0] = .ok [(⟨1, 2⟩ : PortVlanEntry), ⟨3, 4⟩] := by
  obtain ⟨⟨data, count⟩, counted, bytes, read, _, parsed, _⟩ :=
    readEntries_of_paged EntryHead "vlan" paged_vlanPages (by decide)
  obtain rfl : data = [1, 0, 2, 0, 3, 0, 4, 0] := bytes
  obtain rfl : count = 2 := UInt32.toNat_inj.mp counted
  have records := parsed PortVlanEntry rfl
  exact ⟨read ScriptedReplies.answer _ _ framed_vlanPages, records.trans (by decide)⟩

end NicScope
