/-
This file says what holds of files that are arranged as a file system arranges them: whatever has
a name is in a directory. Then there is nothing below a file or a free name, and what is made, moved
or removed leaves the files arranged so. A file that is moved is found where it went, and taking a
lock makes directories and one empty file.
-/

import Mathlib.Data.List.Induction
import NicScope.Proofs.Device.Keeping
import NicScope.Proofs.Host.InDirectory

namespace NicScope

namespace FileTree

variable {tree after : FileTree} {purpose : Purpose} {links : Nat} {here directory key : Key}
  {steps front rest : List String} {step : String} {place : Place} {node : Node}

/-! ### Names in directories -/

/-- Whatever has a name is in a directory, and so is whoever looks at it. -/
structure Rooted (tree : FileTree) : Prop where
  home : tree.lookup tree.workingDirectory = some .directory
  parent : ∀ ⦃key node⦄, key ≠ [] → tree.lookup key = some node →
    tree.lookup key.dropLast = some .directory

/-- Files are arranged so if every entry is in a directory. -/
theorem rooted_of_nodes (home : tree.lookup tree.workingDirectory = some .directory)
    (parents : ∀ entry ∈ tree.nodes, tree.lookup entry.1.dropLast = some .directory) :
    Rooted tree := by
  refine ⟨home, fun key node named found => ?_⟩
  obtain ⟨name, rest, rfl⟩ := List.exists_cons_of_ne_nil named
  obtain ⟨before, behind, split, _⟩ := List.lookup_eq_some_iff.mp found
  exact parents (name :: rest, node) (split ▸ List.mem_append_cons_self)

namespace Rooted

variable (rooted : Rooted tree)

include rooted

/-- There is nothing below what is no directory. -/
theorem below (other : tree.lookup key ≠ some .directory) (behind : rest ≠ []) :
    tree.lookup (key ++ rest) = none := by
  induction rest using List.reverseRecOn with
  | nil => exact absurd rfl behind
  | append_singleton front last inductionHypothesis =>
    cases found : tree.lookup (key ++ (front ++ [last])) with
    | none => rfl
    | some node =>
      have parent := rooted.parent (by simp) found
      rw [← List.append_assoc, List.dropLast_concat] at parent
      cases front with
      | nil =>
        rw [List.append_nil] at parent
        exact absurd parent other
      | cons => cases (inductionHypothesis (List.cons_ne_nil _ _)).symm.trans parent

/-- A walk from a directory ends in a directory. -/
theorem parent_of_leads (inside : tree.lookup here = some .directory)
    (leads : Leads tree purpose links here steps place) (named : place.key ≠ []) :
    tree.lookup place.key.dropLast = some .directory := by
  induction leads with
  | arrived => exact rooted.parent named inside
  | blank _ _ inductionHypothesis => exact inductionHypothesis inside named
  | @up links here step rest place _ _ _ inductionHypothesis =>
    refine inductionHypothesis ?_ named
    by_cases root : here = []
    · subst root
      exact inside
    · exact rooted.parent root inside
  | last =>
    rw [List.dropLast_concat]
    exact inside
  | down _ _ found _ inductionHypothesis => exact inductionHypothesis found named
  | @through links here step rest target place _ _ _ _ _ inductionHypothesis =>
    refine inductionHypothesis ?_ named
    split
    · rfl
    · exact inside

theorem parent_of_find {path : String} (found : tree.find path purpose = .ok place)
    (named : place.key ≠ []) : tree.lookup place.key.dropLast = some .directory := by
  refine rooted.parent_of_leads ?_ (find_eq_ok_iff.mp found).2 named
  rw [start]
  split
  · rfl
  · exact rooted.home

/-- Something is put in place of a free name or a file. -/
theorem insert (parent : tree.lookup key.dropLast = some .directory)
    (plain : Plain (tree.lookup key)) (node : Node) : Rooted (tree.insert key node) := by
  have stays {other : Key} (found : tree.lookup other = some .directory) :
      (tree.insert key node).lookup other = some .directory :=
    (stays_insert plain node).ways found not_plain_directory
  refine ⟨stays rooted.home, fun other there named found => stays ?_⟩
  by_cases same : other = key
  · exact same ▸ parent
  · rw [lookup_insert_of_ne same] at found
    exact rooted.parent named found

/-- Something is made where a path leads to a free name. -/
theorem insert_of_find {path : String} (free : tree.find path purpose = .ok ⟨key, none⟩)
    (node : Node) : Rooted (tree.insert key node) := by
  have none := lookup_of_find free nofun
  exact rooted.insert (rooted.parent_of_find free (ne_nil_of_lookup none nofun))
    (none ▸ plain_none) node

theorem erase (plain : Plain (tree.lookup key)) : Rooted (tree.erase key) := by
  have stays {other : Key} (found : tree.lookup other = some .directory) :
      (tree.erase key).lookup other = some .directory :=
    (stays_erase plain).ways found not_plain_directory
  refine ⟨stays rooted.home, fun other there named found => stays ?_⟩
  by_cases same : other = key
  · subst same
    cases (lookup_erase_self named).symm.trans found
  · rw [lookup_erase_of_ne same] at found
    exact rooted.parent named found

end Rooted

end FileTree

namespace FileAction

open FileTree

variable {files : FileTree}

/-! ### Making -/

section Keeping

variable {good : FileTree → Prop}

theorem keeps_unlessDirectory (path : String) (cause : IoError) :
    Keeps good (do if !(← get).isDirectory path then throw cause : FileAction Unit).run := by
  intro files here
  exact congrArg Prod.snd (run_unlessDirectory path cause files) ▸ here

theorem keeps_tryCatch {action : FileAction Unit} {handler : IoError → FileAction Unit}
    (first : Keeps good action.run) (second : ∀ cause, Keeps good (handler cause).run) :
    Keeps good (tryCatch action handler).run := by
  intro files here
  have there : good (action.run files).2 := first files here
  rw [run_tryCatch]
  rcases ran : action.run files with ⟨cause | _, after⟩
  · rw [ran] at there
    exact second cause after there
  · rw [ran] at there
    exact there

variable (makes : ∀ path, Keeps good (makeDirectory path).run)

include makes

theorem keeps_ensureDirectory (path : String) : Keeps good (ensureDirectory path).run :=
  keeps_tryCatch (makes path) (keeps_unlessDirectory path)

theorem keeps_ensureAll (paths : List String) : Keeps good (ensureAll paths).run := by
  induction paths with
  | nil => exact fun _ here => here
  | cons path parents inductionHypothesis =>
    refine keeps_tryCatch (makes path) fun cause => ?_
    split
    · exact .step inductionHypothesis fun _ => keeps_ensureDirectory makes path
    · exact keeps_unlessDirectory path cause

/-- What each directory keeps that is made, making a path keeps. -/
theorem keeps_ensurePath (path : String) : Keeps good (ensurePath path).run := by
  rw [ensurePath]
  split
  · exact fun _ here => here
  · exact keeps_ensureAll makes _

end Keeping

theorem rooted_ensurePath (path : String) : Keeps Rooted (ensurePath path).run := by
  refine keeps_ensurePath (fun path files rooted => ?_) path
  rw [run_makeDirectory]
  split
  · exact rooted
  · exact rooted
  next key free => exact rooted.insert_of_find free .directory

theorem rooted_createFile (path : String) (mode : Nat) :
    Keeps Rooted (createFile path mode).run := by
  intro files rooted
  rw [run_createFile]
  split
  · exact rooted
  · exact rooted
  · exact rooted
  next key free => exact rooted.insert_of_find free _

/-- Taking a lock keeps files arranged. -/
theorem rooted_provide (directory name : String) :
    Keeps Rooted (FileLock.provide directory name).run :=
  .step (rooted_ensurePath directory) fun _ => rooted_createFile _ 0o600

/-- Files among which some directories have been made under free names, and nothing else. -/
def Furnished (tree after : FileTree) : Prop :=
  ∀ key, after.lookup key = tree.lookup key ∨
    tree.lookup key = none ∧ after.lookup key = some .directory

theorem Furnished.free {tree after : FileTree} {key : Key} (made : Furnished tree after)
    (free : after.lookup key = none) : tree.lookup key = none := by
  rcases made key with same | ⟨before, _⟩
  · exact same.symm.trans free
  · exact before

theorem furnished_ensurePath (path : String) (files : FileTree) :
    Furnished files ((ensurePath path).run files).2 := by
  refine keeps_ensurePath (fun path middle made => ?_) path files fun _ => .inl rfl
  rw [run_makeDirectory]
  split
  · exact made
  · exact made
  next place free =>
    have none := lookup_of_find free nofun
    intro key
    by_cases here : key = place
    · subst here
      exact .inr ⟨made.free none, lookup_insert_self (ne_nil_of_lookup none nofun)⟩
    · rw [lookup_insert_of_ne here]
      exact made key

/-- Taking a lock makes nothing but directories and an empty file, the one that is locked. -/
theorem lookup_provide {directory name : String} {after : FileTree} {locked : Key}
    (provided : (FileLock.provide directory name).run files = (.ok locked, after)) (key : Key) :
    after.lookup key = files.lookup key ∨ files.lookup key = none ∧
      (after.lookup key = some .directory ∨
        key = locked ∧ after.lookup key = some (.file 0o600 [])) := by
  have made := furnished_ensurePath directory files
  rcases ran : (ensurePath directory).run files with ⟨cause | _, middle⟩
  · rw [FileLock.provide, run_bind_of_error ran] at provided
    cases provided
  rw [ran] at made
  rw [FileLock.provide, run_bind_of_ok ran, run_createFile] at provided
  split at provided
  · cases provided
  · cases provided
    exact (made key).imp_right (And.imp_right .inl)
  · cases provided
  next place free =>
    cases provided
    have absent : (none : Option Node) ≠ some .directory := (Option.some_ne_none _).symm
    have none := lookup_of_find free absent
    by_cases here : key = locked
    · subst here
      exact .inr ⟨made.free none, .inr ⟨rfl, lookup_insert_self (ne_nil_of_lookup none absent)⟩⟩
    · rw [lookup_insert_of_ne here]
      exact (made key).imp_right (And.imp_right .inl)

/-! ### Moving -/

section Moving

/-- A file cannot be moved in place of a directory. -/
theorem run_rename_onto_directory {source target : String} {here there : Key} {mode : Nat}
    {content : Bytes} (found : files.find source .name = .ok ⟨here, some (.file mode content)⟩)
    (taken : files.find target .name = .ok ⟨there, some .directory⟩) :
    (rename source target).run files = (.error (.system .isDirectory), files) := by
  have lookedSource := run_look (·.find source .name) files
  have lookedTarget := run_look (·.find target .name) files
  rw [found] at lookedSource
  rw [taken] at lookedTarget
  rw [rename, run_bind_of_ok lookedSource, run_bind_of_ok lookedTarget]
  rfl

variable {source target : Key}

theorem lookup_map_moved {nodes : List (Key × Node)} (apart : ¬ source <+: target)
    (clear : ∀ entry ∈ nodes, target <+: entry.1 → entry.1 = target) (below : Key) :
    ((nodes.filter fun entry => entry.1 != target).map fun entry =>
        if source.isPrefixOf entry.1 then (target ++ entry.1.drop source.length, entry.2)
        else entry).lookup (target ++ below) =
      nodes.lookup (source ++ below) := by
  induction nodes with
  | nil => rfl
  | cons entry nodes inductionHypothesis =>
    obtain ⟨place, node⟩ := entry
    obtain ⟨here, there⟩ := List.forall_mem_cons.mp clear
    have further := inductionHypothesis there
    by_cases same : place = target
    · subst same
      have different : source ++ below ≠ place := fun same => apart (same ▸ List.prefix_append _ _)
      rw [List.filter_cons_of_neg (by simp), further, List.lookup_cons, beq_false_of_ne different]
    · rw [List.filter_cons_of_pos (by simpa using same), List.map_cons, List.lookup_cons,
        List.lookup_cons, further]
      by_cases under : source <+: place
      · rw [if_pos (List.isPrefixOf_iff_prefix.mpr under)]
        obtain ⟨more, rfl⟩ := under
        rw [List.drop_left]
        by_cases alike : below = more
        · rw [alike, beq_self_eq_true, beq_self_eq_true]
        · rw [beq_false_of_ne fun same => alike (List.append_cancel_left same),
            beq_false_of_ne fun same => alike (List.append_cancel_left same)]
      · rw [if_neg fun same => under (List.isPrefixOf_iff_prefix.mp same)]
        have notSource : source ++ below ≠ place := fun same =>
          under (same ▸ List.prefix_append _ _)
        have notTarget : target ++ below ≠ place := fun found =>
          same (here (found ▸ List.prefix_append _ _))
        rw [beq_false_of_ne notSource, beq_false_of_ne notTarget]

/-- What has been moved is where it went. -/
theorem lookup_moved_target {below : Key} (named : source ≠ []) (named' : target ≠ [])
    (apart : ¬ source <+: target)
    (clear : ∀ rest, rest ≠ [] → files.lookup (target ++ rest) = none) :
    (moved source target files).lookup (target ++ below) = files.lookup (source ++ below) := by
  have entries : ∀ entry ∈ files.nodes, target <+: entry.1 → entry.1 = target := by
    rintro ⟨_, node⟩ member ⟨rest, rfl⟩
    by_cases empty : rest = []
    · rw [empty]
      exact List.append_nil target
    · have absent : files.nodes.lookup (target ++ rest) = none := by
        rw [← clear rest empty]
        obtain ⟨name, more, same⟩ :=
          List.exists_cons_of_ne_nil (List.append_ne_nil_of_left_ne_nil named' rest)
        rw [same, lookup]
      exact absurd rfl (bne_iff_ne.mp (List.lookup_eq_none_iff.mp absent _ member))
  have moves := lookup_map_moved apart entries below
  obtain ⟨name, more, same⟩ :=
    List.exists_cons_of_ne_nil (List.append_ne_nil_of_left_ne_nil named below)
  obtain ⟨name', more', same'⟩ :=
    List.exists_cons_of_ne_nil (List.append_ne_nil_of_left_ne_nil named' below)
  rw [same, same'] at moves ⊢
  exact moves

/-- A file that is moved to a free name or in place of a file leaves its name free; nothing else
changes. -/
theorem lookup_moved_of_rooted (rooted : Rooted files) (plain : Plain (files.lookup source))
    (plain' : Plain (files.lookup target)) (apart : ¬ source <+: target)
    (apart' : ¬ target <+: source) (key : Key) :
    (moved source target files).lookup key =
      if key = target then files.lookup source else if key = source then none
        else files.lookup key := by
  have named : source ≠ [] := fun same => plain.ne_directory (same ▸ rfl)
  have named' : target ≠ [] := fun same => plain'.ne_directory (same ▸ rfl)
  by_cases inTarget : target <+: key
  · obtain ⟨below, rfl⟩ := inTarget
    rw [lookup_moved_target named named' apart fun rest => rooted.below plain'.ne_directory]
    by_cases empty : below = []
    · rw [empty, List.append_nil, List.append_nil, if_pos rfl]
    · have notSource : target ++ below ≠ source := fun same =>
        apart' (same ▸ List.prefix_append _ _)
      rw [if_neg (by simpa using empty), if_neg notSource,
        rooted.below plain.ne_directory empty, rooted.below plain'.ne_directory empty]
  · have notTarget : key ≠ target := fun same => inTarget (same ▸ List.prefix_refl _)
    rw [if_neg notTarget]
    cases key with
    | nil => exact (if_neg named.symm).symm
    | cons name more =>
      rw [lookup_moved (List.cons_ne_nil name more) inTarget]
      by_cases inSource : source <+: name :: more
      · rw [if_pos inSource]
        obtain ⟨below, same⟩ := inSource
        rw [← same]
        by_cases empty : below = []
        · rw [empty, List.append_nil, if_pos rfl]
        · rw [if_neg (by simpa using empty), rooted.below plain.ne_directory empty]
      · have notSource : name :: more ≠ source := fun same =>
          inSource (same ▸ List.prefix_refl _)
        rw [if_neg inSource, if_neg notSource]

/-- Moving a file keeps files arranged, and leaves directories and links what they are. -/
theorem rooted_moved (rooted : Rooted files) (plain : Plain (files.lookup source))
    (plain' : Plain (files.lookup target)) (apart : ¬ source <+: target)
    (apart' : ¬ target <+: source) (parent : files.lookup target.dropLast = some .directory) :
    Rooted (moved source target files) ∧ Stays files (moved source target files) := by
  have looked := lookup_moved_of_rooted rooted plain plain' apart apart'
  have stays : Stays files (moved source target files) := by
    refine ⟨rfl, fun key node found way => ?_⟩
    rw [looked, if_neg, if_neg, found]
    · rintro rfl
      exact way (found ▸ plain)
    · rintro rfl
      exact way (found ▸ plain')
  refine ⟨⟨stays.ways rooted.home not_plain_directory, fun key node named found => ?_⟩, stays⟩
  refine stays.ways ?_ not_plain_directory
  rw [looked] at found
  split at found
  next same => exact same ▸ parent
  next =>
    split at found
    · cases found
    · exact rooted.parent named found

end Moving

end FileAction

end NicScope
