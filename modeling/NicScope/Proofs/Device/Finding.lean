/-
This file says which device is found: of the entries that are not hidden and whose files name the
kind and the vendor looked for, the one with the least name, whatever its revision. The system lists
a directory in any order. The names are put in order before they are searched, so the entry is the
same for trees that differ only in how their directories are listed, and so is what is noted.
-/

import Mathlib.Data.String.Basic
import Mathlib.Order.Bounds.Basic
import NicScope.Proofs.Device.Opening
import NicScope.Proofs.Host.Looking
import NicScope.Proofs.Text.DigitReading

namespace NicScope

open FileTree

/-! ### The first in order -/

/-- In a sorted list what is found first is the least of what could be found. -/
theorem find?_eq_some_iff_isLeast {α : Type} [LinearOrder α] {items : List α}
    (sorted : items.Pairwise (· ≤ ·)) {chosen : α → Bool} {item : α} :
    items.find? chosen = some item ↔
      IsLeast {other | other ∈ items ∧ chosen other = true} item := by
  induction items with
  | nil => exact iff_of_false nofun fun least => List.not_mem_nil least.1.1
  | cons first rest inductionHypothesis =>
    obtain ⟨below, ordered⟩ := List.pairwise_cons.mp sorted
    rw [List.find?_cons]
    cases taken : chosen first with
    | true =>
      have least : IsLeast {other | other ∈ first :: rest ∧ chosen other = true} first := by
        refine ⟨⟨List.mem_cons_self, taken⟩, fun other candidate => ?_⟩
        rcases List.mem_cons.mp candidate.1 with rfl | later
        · exact le_rfl
        · exact below other later
      rw [Option.some_inj]
      exact ⟨fun same => same ▸ least, least.unique⟩
    | false =>
      have apart : {other | other ∈ first :: rest ∧ chosen other = true} =
          {other | other ∈ rest ∧ chosen other = true} := by
        ext other
        refine and_congr_left fun candidate => ?_
        rw [List.mem_cons, or_iff_right]
        rintro rfl
        cases taken.symm.trans candidate
      rw [apart]
      exact inductionHypothesis ordered

/-! ### Trees that are listed in another order -/

/-- The trees have the same files in the same places; their directories may be listed in different
orders. -/
structure Relisted (tree other : FileTree) : Prop where
  home : other.workingDirectory = tree.workingDirectory
  lookup : ∀ key, other.lookup key = tree.lookup key
  children : ∀ key, (other.children key).Perm (tree.children key)

theorem lookup_eq_some_iff_mem {entries : List (Key × Node)}
    (distinct : (entries.map Prod.fst).Nodup) {key : Key} {node : Node} :
    entries.lookup key = some node ↔ (key, node) ∈ entries := by
  induction entries with
  | nil => exact iff_of_false nofun List.not_mem_nil
  | cons entry rest inductionHypothesis =>
    obtain ⟨fresh, others⟩ := List.nodup_cons.mp distinct
    obtain ⟨place, stored⟩ := entry
    rw [List.lookup_cons, List.mem_cons, Prod.mk_inj]
    by_cases here : key = place
    · subst here
      have absent : (key, node) ∉ rest := fun member =>
        fresh (List.mem_map.mpr ⟨_, member, rfl⟩)
      rw [beq_self_eq_true, Option.some_inj]
      exact ⟨fun same => .inl ⟨rfl, same.symm⟩, fun either =>
        either.elim (fun same => same.2.symm) fun member => absurd member absent⟩
    · rw [beq_false_of_ne here]
      exact (inductionHypothesis others).trans (or_iff_right fun same => here same.1).symm

/-- Nodes of different places may be stored in any order. -/
theorem relisted_of_perm {tree other : FileTree}
    (home : other.workingDirectory = tree.workingDirectory)
    (distinct : (tree.nodes.map Prod.fst).Nodup) (perm : other.nodes.Perm tree.nodes) :
    Relisted tree other := by
  refine ⟨home, fun key => ?_, fun key => perm.filterMap _⟩
  cases key with
  | nil => rfl
  | cons name rest =>
    have distinct' := (perm.map Prod.fst).nodup_iff.mpr distinct
    refine Option.ext fun node => ?_
    exact (lookup_eq_some_iff_mem distinct').trans
      (perm.mem_iff.trans (lookup_eq_some_iff_mem distinct).symm)

namespace Relisted

variable {tree other : FileTree} (relisted : Relisted tree other) (path : String)

include relisted

theorem node_eq : other.node path = tree.node path := by
  rw [node, node, find_congr relisted.home fun key _ _ => relisted.lookup key]

theorem readText?_eq : other.readText? path = tree.readText? path := by
  rw [readText?, readText?, FileTree.read, FileTree.read, relisted.node_eq path]

/-- A directory has the same names, in any order, or cannot be listed for the same cause. -/
theorem list_cases :
    (∃ cause, other.list path = .error cause ∧ tree.list path = .error cause) ∨
      ∃ names others, tree.list path = .ok names ∧ other.list path = .ok others ∧
        others.Perm names := by
  rw [FileTree.list, FileTree.list, relisted.node_eq path]
  rcases tree.node path with cause | ⟨key, node⟩
  · exact .inl ⟨cause, rfl, rfl⟩
  · cases node with
    | directory => exact .inr ⟨_, _, rfl, rfl, relisted.children key⟩
    | file | link => exact .inl ⟨_, rfl, rfl⟩

end Relisted

namespace Discovery

variable {settings : Settings} {files other : FileTree}

/-! ### Entries of the device looked for -/

/-- There is a file of text at `path` which, blanks at its end not counted, begins with
`expected`. -/
def Names (files : FileTree) (path expected : String) : Prop :=
  ∃ text, files.readText? path = some text ∧
    expected.toList <+: Blank.trimEnd text.toList

theorem idMatches_iff {path expected : String} :
    idMatches files path expected = true ↔ Names files path expected := by
  rw [idMatches, Names]
  cases files.readText? path with
  | none => exact iff_of_false nofun fun ⟨_, absent, _⟩ => nomatch absent
  | some text =>
    dsimp only
    rw [List.isPrefixOf_iff_prefix]
    constructor
    · exact fun begins => ⟨text, rfl, begins⟩
    · rintro ⟨_, same, begins⟩
      cases same
      exact begins

/-- The directory of an entry. -/
def entryPath (settings : Settings) (name : String) : String :=
  Path.join (devicesPath settings) name

/-- The entry is listed and not hidden, and its files name the kind and the vendor looked for. -/
structure Candidate (settings : Settings) (files : FileTree) (name : String) : Prop where
  listed : ∃ names, files.list (devicesPath settings) = .ok names ∧ name ∈ names
  shown : name.toList.head? ≠ some '.'
  kind : Names files (Path.join (entryPath settings name) "device") (idText settings.device)
  vendor : Names files (Path.join (entryPath settings name) "vendor") (idText settings.vendor)

/-- What ids begin with is their four hexadecimal digits. -/
theorem toList_idText (id : UInt16) :
    ∃ digits, (idText id).toList = '0' :: 'x' :: digits ∧ digits.length = 4 ∧
      Numeral.Writes 16 digits id.toNat := by
  refine ⟨Numeral.paddedDigits 16 4 id.toNat, ?_,
    Numeral.length_paddedDigits (by decide) (by decide) id.toNat_lt,
    Numeral.writes_paddedDigits (by decide) (by decide) 4 id.toNat⟩
  rw [idText, String.toList_append, Numeral.paddedHexadecimal, String.toList_ofList]
  simp

theorem pairwise_visible (names : List String) : (visible names).Pairwise (· ≤ ·) := by
  refine (List.pairwise_mergeSort (fun first second third => ?_) (fun first second => ?_)
    (names.filter _)).imp of_decide_eq_true
  · simpa only [decide_eq_true_eq] using le_trans
  · simpa only [Bool.or_eq_true, decide_eq_true_eq] using le_total first second

theorem mem_visible {names : List String} {name : String} :
    name ∈ visible names ↔ name ∈ names ∧ name.toList.head? ≠ some '.' := by
  rw [visible, List.mem_mergeSort, List.mem_filter, bne_iff_ne]

theorem isWanted_entryPath {name : String} :
    isWanted settings files (entryPath settings name) = true ↔
      Names files (Path.join (entryPath settings name) "device") (idText settings.device) ∧
      Names files (Path.join (entryPath settings name) "vendor") (idText settings.vendor) := by
  rw [isWanted, Bool.and_eq_true, idMatches_iff, idMatches_iff]

/-- The candidates are those of the names to be searched that are wanted. -/
theorem candidate_iff {names : List String}
    (listing : files.list (devicesPath settings) = .ok names) {name : String} :
    Candidate settings files name ↔
      name ∈ visible names ∧ isWanted settings files (entryPath settings name) = true := by
  rw [mem_visible, isWanted_entryPath]
  constructor
  · rintro ⟨⟨_, listing', listed⟩, shown, kind, vendor⟩
    cases listing.symm.trans listing'
    exact ⟨⟨listed, shown⟩, kind, vendor⟩
  · rintro ⟨⟨listed, shown⟩, kind, vendor⟩
    exact ⟨⟨names, listing, listed⟩, shown, kind, vendor⟩

theorem not_candidate_of_error {cause : IoError}
    (listing : files.list (devicesPath settings) = .error cause) (name : String) :
    ¬ Candidate settings files name := by
  rintro ⟨⟨_, listing', _⟩, _⟩
  cases listing.symm.trans listing'

/-- What is found is the directory of the least candidate. -/
theorem find_eq_some_iff {directory : String} :
    find settings files = some directory ↔
      ∃ name, IsLeast {name | Candidate settings files name} name ∧
        entryPath settings name = directory := by
  rw [find]
  cases listing : files.list (devicesPath settings) with
  | error cause =>
    exact iff_of_false nofun fun ⟨name, least, _⟩ => not_candidate_of_error listing name least.1
  | ok names =>
    dsimp only
    rw [List.find?_map, Option.map_eq_some_iff]
    simp only [candidate_iff listing]
    exact exists_congr fun name => and_congr_left fun _ =>
      find?_eq_some_iff_isLeast (pairwise_visible names)

/-- Nothing is found where there is no candidate. -/
theorem find_eq_none_iff :
    find settings files = none ↔ ∀ name, ¬ Candidate settings files name := by
  rw [find]
  cases listing : files.list (devicesPath settings) with
  | error cause => exact iff_of_true rfl (not_candidate_of_error listing)
  | ok names =>
    dsimp only
    rw [List.find?_map, Option.map_eq_none_iff, List.find?_eq_none]
    simp only [candidate_iff listing, not_and]
    rfl

/-! ### What is found and noted -/

/-- What is noted of the entry: nothing, or that its revision is not the one expected. -/
inductive Notes (settings : Settings) (files : FileTree) (directory : String) :
    List LogRecord → Prop
  | expected
      (matching : Names files (Path.join directory "revision") (revisionText settings.revision)) :
      Notes settings files directory []
  | foreign
      (other : ¬ Names files (Path.join directory "revision") (revisionText settings.revision)) :
      Notes settings files directory
        [.warning ("Revision id not match " ++ revisionText settings.revision ++ ".")]

theorem run_discover_of_some {host : Host} {directory : String}
    (found : find settings host.files = some directory) :
    ∃ records, Notes settings host.files directory records ∧
      (discover settings).run host =
        (.ok directory, { host with log := host.log ++ records }) := by
  rw [discover, run_bind_get]
  dsimp only
  rw [found]
  dsimp only
  cases matching : hasRevision settings host.files directory with
  | false =>
    have other := mt idMatches_iff.mpr (ne_true_of_eq_false matching)
    exact ⟨_, .foreign other, rfl⟩
  | true =>
    refine ⟨_, .expected (idMatches_iff.mp matching), ?_⟩
    rw [List.append_nil]
    rfl

theorem Notes.unique {directory : String} {records others : List LogRecord}
    (notes : Notes settings files directory records)
    (also : Notes settings files directory others) : records = others := by
  cases notes with
  | expected matching =>
    cases also with
    | expected => rfl
    | foreign other => exact absurd matching other
  | foreign other =>
    cases also with
    | expected matching => exact absurd matching other
    | foreign => rfl

theorem run_discover_of_none {host : Host} (absent : find settings host.files = none) :
    (discover settings).run host =
      (.error (.deviceNotFound settings.vendor settings.device), host) := by
  rw [discover, run_bind_get]
  dsimp only
  rw [absent]
  rfl

/-! ### In any order -/

section Relisting

variable (relisted : Relisted files other)

include relisted

theorem idMatches_relisted (path expected : String) :
    idMatches other path expected = idMatches files path expected := by
  rw [idMatches, idMatches, relisted.readText?_eq path]

theorem hasRevision_relisted (directory : String) :
    hasRevision settings other directory = hasRevision settings files directory :=
  idMatches_relisted relisted _ _

theorem candidate_relisted (name : String) :
    Candidate settings other name ↔ Candidate settings files name := by
  rcases relisted.list_cases (devicesPath settings) with
    ⟨cause, first, second⟩ | ⟨names, others, first, second, perm⟩
  · exact iff_of_false (not_candidate_of_error first name) (not_candidate_of_error second name)
  · rw [candidate_iff first, candidate_iff second, mem_visible, mem_visible, perm.mem_iff, isWanted,
      isWanted, idMatches_relisted relisted, idMatches_relisted relisted]

theorem find_relisted : find settings other = find settings files := by
  refine Option.ext fun directory => ?_
  rw [find_eq_some_iff, find_eq_some_iff]
  simp only [candidate_relisted relisted]

/-- In whatever order directories are listed, the device is found alike. -/
theorem run_discover_relisted {host : Host} (same : host.files = files) :
    (discover settings).run { host with files := other } =
      (((discover settings).run host).1,
        { ((discover settings).run host).2 with files := other }) := by
  rw [discover, run_bind_get, run_bind_get, same]
  dsimp only
  rw [find_relisted relisted]
  cases find settings files with
  | none => rfl
  | some directory =>
    dsimp only
    rw [hasRevision_relisted relisted]
    cases hasRevision settings files directory <;> rfl

end Relisting

/-- Ids are looked for as four hexadecimal digits. Finding the device comes to the entry with the
least name of those that are listed, not hidden and of the kind and the vendor looked for, and notes
a foreign revision of this entry alone. It fails exactly if there is no such entry, as where the
directory cannot be listed. Nothing of this changes with the order in which directories are
listed. -/
theorem discover_finds_least (settings : Settings) (host : Host) :
    (∀ id : UInt16, ∃ digits, (idText id).toList = '0' :: 'x' :: digits ∧ digits.length = 4 ∧
      Numeral.Writes 16 digits id.toNat) ∧
    (∀ outcome after, (discover settings).run host = (outcome, after) ↔
      (∃ name records, IsLeast {name | Candidate settings host.files name} name ∧
        Notes settings host.files (entryPath settings name) records ∧
        outcome = .ok (entryPath settings name) ∧
        after = { host with log := host.log ++ records }) ∨
      (((∃ cause, host.files.list (devicesPath settings) = .error cause) ∨
          ∀ name, ¬ Candidate settings host.files name) ∧
        outcome = .error (.deviceNotFound settings.vendor settings.device) ∧ after = host)) ∧
    ∀ other, Relisted host.files other →
      (discover settings).run { host with files := other } =
        (((discover settings).run host).1,
          { ((discover settings).run host).2 with files := other }) := by
  refine ⟨toList_idText, fun outcome after => ?_, fun other relisted => ?_⟩
  · constructor
    · intro ran
      cases found : find settings host.files with
      | none =>
        cases (run_discover_of_none found).symm.trans ran
        exact .inr ⟨.inr (find_eq_none_iff.mp found), rfl, rfl⟩
      | some directory =>
        obtain ⟨records, notes, course⟩ := run_discover_of_some found
        cases course.symm.trans ran
        obtain ⟨name, least, rfl⟩ := find_eq_some_iff.mp found
        exact .inl ⟨name, records, least, notes, rfl, rfl⟩
    · rintro (⟨name, records, least, notes, rfl, rfl⟩ | ⟨absent, rfl, rfl⟩)
      · obtain ⟨_, notes', course⟩ :=
          run_discover_of_some (find_eq_some_iff.mpr ⟨name, least, rfl⟩)
        rwa [← notes.unique notes'] at course
      · refine run_discover_of_none (find_eq_none_iff.mpr ?_)
        exact absent.elim (fun ⟨_, failed⟩ => not_candidate_of_error failed) id
  · exact run_discover_relisted relisted rfl

/-- An entry with the ids of the device that is mostly looked for, and some revision. -/
def publishedEntry (name revision : String) : List (Key × Node) :=
  let directory := ["sys", "bus", "pci", "devices", name]
  [(directory, .directory), (directory ++ ["device"], .file 0o444 "0xa12f\n".toUTF8.toList),
    (directory ++ ["vendor"], .file 0o444 "0x19e5\n".toUTF8.toList),
    (directory ++ ["revision"], .file 0o444 revision.toUTF8.toList)]

/-- A host on which two entries are listed one behind the other. -/
def publishingHost (first second : List (Key × Node)) : Host where
  files := ⟨[(["sys"], .directory), (["sys", "bus"], .directory),
    (["sys", "bus", "pci"], .directory), (["sys", "bus", "pci", "devices"], .directory)] ++
      (first ++ second), []⟩
  locks := []
  log := []
  clock := fun _ => ⟨0, 0⟩
  readings := 0
  process := 0

/-- Of two entries that could be the device the one with the lesser name is found although it is
listed last and its revision is another; it is found too where it is listed first. -/
theorem discover_finds_least_twoEntries :
    let settings : Settings := ⟨"logs", "locks", "sys", 0x19e5, 0xa12f, 0x30, 0, 1, 1, 0, 512⟩
    let listedLast :=
      publishingHost (publishedEntry "iep1" "0x30\n") (publishedEntry "iep0" "0x21\n")
    let listedFirst :=
      publishingHost (publishedEntry "iep0" "0x21\n") (publishedEntry "iep1" "0x30\n")
    Relisted listedLast.files listedFirst.files ∧
      (listedLast.files.list (devicesPath settings)).toOption = some ["iep1", "iep0"] ∧
      (listedFirst.files.list (devicesPath settings)).toOption = some ["iep0", "iep1"] ∧
      ∀ host ∈ [listedLast, listedFirst], (discover settings).run host =
        (.ok "sys/bus/pci/devices/iep0",
          { host with log := [.warning "Revision id not match 0x30."] }) := by
  intro settings listedLast listedFirst
  have listing : listedLast.files.list (devicesPath settings) = .ok ["iep1", "iep0"] := by
    decide +kernel
  have relisted : Relisted listedLast.files listedFirst.files :=
    relisted_of_perm rfl (by decide +kernel) (List.perm_append_comm.append_left _)
  have candidate : Candidate settings listedLast.files "iep0" :=
    (candidate_iff listing).mpr ⟨mem_visible.mpr (by decide), by decide +kernel⟩
  have least : IsLeast {name | Candidate settings listedLast.files name} "iep0" := by
    have below : ∀ name ∈ ["iep1", "iep0"], "iep0" ≤ name := by decide
    exact ⟨candidate, fun name other =>
      below name (mem_visible.mp ((candidate_iff listing).mp other).1).1⟩
  have foreign : hasRevision settings listedLast.files (entryPath settings "iep0") = false := by
    decide +kernel
  have directory : entryPath settings "iep0" = "sys/bus/pci/devices/iep0" := by decide +kernel
  have revision : revisionText settings.revision = "0x30" := by decide +kernel
  have ran := ((discover_finds_least settings listedLast).2.1 _ _).mpr
    (.inl ⟨_, _, least, .foreign (mt idMatches_iff.mpr (ne_true_of_eq_false foreign)), rfl, rfl⟩)
  rw [directory, revision] at ran
  have alike := (discover_finds_least settings listedLast).2.2 _ relisted
  rw [ran] at alike
  exact ⟨relisted, by decide +kernel, by decide +kernel,
    List.forall_mem_cons.mpr ⟨ran, List.forall_mem_singleton.mpr alike⟩⟩

end Discovery

end NicScope
