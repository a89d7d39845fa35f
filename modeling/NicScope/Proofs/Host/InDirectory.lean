/-
This file says where the path of a name in a directory leads. A path that is joined to the path of a
directory is walked as that is, and then on to the name. So it leads to what has this name in the
directory, unless that is a link, and it goes on to do so as long as directories and links stay what
they are.
-/

import Mathlib.Data.List.Basic
import NicScope.Proofs.Host.Looking
import NicScope.Proofs.Host.Making

namespace NicScope

/-! ### Joining paths -/

namespace Cut

theorem all_ne_nil (separator : Char) (text : List Char) : all separator text ≠ [] := by
  cases text with
  | nil => exact List.cons_ne_nil _ _
  | cons character rest =>
    rw [all]
    split
    · exact List.cons_ne_nil _ _
    · split
      · exact List.cons_ne_nil _ _
      · exact List.cons_ne_nil _ _

/-- At a separator a text is cut in two. -/
theorem all_append (separator : Char) (front rest : List Char) :
    all separator (front ++ separator :: rest) = all separator front ++ all separator rest := by
  induction front with
  | nil =>
    have cut : all separator (separator :: rest) = [] :: all separator rest := by
      rw [all, if_pos rfl]
    exact cut
  | cons character front inductionHypothesis =>
    rw [List.cons_append, all, all, inductionHypothesis]
    split
    · rfl
    · rcases pieces : all separator front with _ | ⟨first, others⟩
      · exact absurd pieces (all_ne_nil separator front)
      · rfl

theorem all_of_not_mem {separator : Char} {text : List Char} (absent : separator ∉ text) :
    all separator text = [text] := by
  induction text with
  | nil => rfl
  | cons character rest inductionHypothesis =>
    rw [List.mem_cons, not_or] at absent
    rw [all, if_neg (Ne.symm absent.1), inductionHypothesis absent.2]

end Cut

/-- The name of something in a directory. -/
structure Path.IsEntry (name : String) : Prop where
  step : FileTree.IsName name
  whole : '/' ∉ name.toList

namespace Path

variable {base name : String}

theorem IsEntry.toList_ne_nil (entry : IsEntry name) : name.toList ≠ [] := by
  intro empty
  obtain rfl : name = "" := String.toList_eq_nil_iff.mp empty
  exact absurd entry.step.visible (by decide)

theorem IsEntry.isAbsolute_eq (entry : IsEntry name) : isAbsolute name = false := by
  refine eq_false_of_ne_true fun absolute => entry.whole ?_
  exact List.mem_of_head? (eq_of_beq absolute)

/-- What stands before the name where it is joined to a base: nothing, or text that ends with a
slash. -/
theorem exists_toList_join (entry : IsEntry name) (named : base.isEmpty = false) :
    ∃ front, (join base name).toList = front ++ '/' :: name.toList ∧
      (base.toList = front ∨ base.toList = front ++ ['/']) := by
  rw [join, entry.isAbsolute_eq, named]
  cases ends : namesDirectory base with
  | true =>
    obtain ⟨front, spelled⟩ := List.getLast?_eq_some_iff.mp (eq_of_beq ends)
    refine ⟨front, ?_, .inr spelled⟩
    rw [if_neg (by decide), if_pos rfl, String.toList_append, spelled, List.append_assoc]
    rfl
  | false =>
    refine ⟨base.toList, ?_, .inl rfl⟩
    rw [if_neg (by decide), if_neg (by decide), String.toList_append, String.toList_append,
      List.append_assoc]
    rfl

theorem join_of_isEmpty (empty : base.isEmpty = true) : join base name = name := by
  rw [join, empty, Bool.or_true, if_pos rfl]

theorem namesDirectory_join (entry : IsEntry name) : namesDirectory (join base name) = false := by
  have last : (join base name).toList.getLast? = name.toList.getLast? := by
    cases named : base.isEmpty with
    | true => rw [join_of_isEmpty named]
    | false =>
      obtain ⟨front, spelled, _⟩ := exists_toList_join entry named
      rw [spelled, List.getLast?_append_cons, List.getLast?_cons_of_ne_nil entry.toList_ne_nil]
  refine eq_false_of_ne_true fun slash => entry.whole ?_
  exact List.mem_of_getLast? (last ▸ eq_of_beq slash)

theorem isAbsolute_join (entry : IsEntry name) : isAbsolute (join base name) = isAbsolute base := by
  cases named : base.isEmpty with
  | true =>
    rw [join_of_isEmpty named, entry.isAbsolute_eq, String.isEmpty_iff.mp named]
    rfl
  | false =>
    obtain ⟨front, spelled, same | same⟩ := exists_toList_join entry named
    · rw [isAbsolute, isAbsolute, spelled, same]
      cases front with
      | nil => exact absurd (String.toList_eq_nil_iff.mp same) (by simpa using named)
      | cons => rfl
    · rw [isAbsolute, isAbsolute, spelled, same]
      cases front with
      | nil => rfl
      | cons => rfl

/-- The components of a base and then the name. -/
theorem components_join (entry : IsEntry name) :
    components (join base name) = components base ++ [name] := by
  have last : ((Cut.all '/' name.toList).filter fun part => !part.isEmpty).map String.ofList =
      [name] := by
    rw [Cut.all_of_not_mem entry.whole, List.filter_cons_of_pos, List.filter_nil,
      List.map_singleton, String.ofList_toList]
    rw [Bool.not_eq_true', List.isEmpty_eq_false_iff]
    exact entry.toList_ne_nil
  cases named : base.isEmpty with
  | true =>
    rw [join_of_isEmpty named, String.isEmpty_iff.mp named, components, last]
    rfl
  | false =>
    obtain ⟨front, spelled, same | same⟩ := exists_toList_join entry named
    · rw [components, components, spelled, same, Cut.all_append, List.filter_append,
        List.map_append, last]
    · have nothing : ((Cut.all '/' []).filter fun part => !part.isEmpty).map String.ofList = [] :=
        rfl
      rw [components, components, spelled, same, Cut.all_append, Cut.all_append, List.filter_append,
        List.filter_append, List.map_append, List.map_append, last, nothing, List.append_nil]

theorem steps_join (entry : IsEntry name) (purpose : Purpose) :
    purpose.steps (join base name) = components base ++ [name] := by
  have whole : steps (join base name) = components base ++ [name] := by
    rw [steps, namesDirectory_join entry, components_join entry, if_neg Bool.false_ne_true,
      List.append_nil]
  cases purpose with
  | newDirectory => exact components_join entry
  | name | target | newFile => exact whole

end Path

namespace FileTree

variable {tree after : FileTree} {purpose : Purpose} {links : Nat} {here directory key : Key}
  {steps front rest : List String} {step : String} {place : Place} {node : Node}

/-! ### Walks through a directory -/

/-- A walk with steps behind its front goes through a directory. -/
theorem Leads.split (behind : rest ≠ [])
    (leads : Leads tree purpose links here (front ++ rest) place) :
    ∃ directory left, Leads tree .target links here front ⟨directory, some .directory⟩ ∧
      Leads tree purpose left directory rest place := by
  have atOnce {links here steps place} (leads : Leads tree purpose links here steps place)
      (whole : [] ++ rest = steps) :
      ∃ directory left, Leads tree .target links here [] ⟨directory, some .directory⟩ ∧
        Leads tree purpose left directory rest place := by
    obtain rfl : rest = steps := whole
    exact ⟨here, links, .arrived, leads⟩
  generalize whole : front ++ rest = steps at leads
  induction leads generalizing front with
  | arrived => exact absurd (List.append_eq_nil_iff.mp whole).2 behind
  | blank nothing further inductionHypothesis =>
    cases front with
    | nil => exact atOnce (.blank nothing further) whole
    | cons step front =>
      cases whole
      obtain ⟨directory, left, first, second⟩ := inductionHypothesis rfl
      exact ⟨directory, left, .blank nothing first, second⟩
  | up visible back further inductionHypothesis =>
    cases front with
    | nil => exact atOnce (.up visible back further) whole
    | cons step front =>
      cases whole
      obtain ⟨directory, left, first, second⟩ := inductionHypothesis rfl
      exact ⟨directory, left, .up visible back first, second⟩
  | @last links here step node name found ends =>
    cases front with
    | nil => exact atOnce (show Leads tree purpose links here _ _ from .last name found ends) whole
    | cons step front =>
      exact absurd (List.append_eq_nil_iff.mp (List.cons.inj whole).2).2 behind
  | down name enters found further inductionHypothesis =>
    cases front with
    | nil => exact atOnce (.down name enters found further) whole
    | cons step front =>
      cases whole
      obtain ⟨directory, left, first, second⟩ := inductionHypothesis rfl
      exact ⟨directory, left, .down name rfl found first, second⟩
  | through name enters found follows further inductionHypothesis =>
    cases front with
    | nil => exact atOnce (.through name enters found follows further) whole
    | cons step front =>
      cases whole
      obtain ⟨directory, left, first, second⟩ := inductionHypothesis (List.append_assoc _ _ _)
      exact ⟨directory, left, .through name rfl found (by simp [Purpose.follows]) first, second⟩

theorem IsName.ne_empty (name : IsName step) : step ≠ "" := by
  rintro rfl
  exact absurd name.visible (by decide)

/-- A walk to a directory leads on to each of its names, unless that is a link that is followed. -/
theorem Leads.snoc (leads : Leads tree .target links here front ⟨directory, some .directory⟩)
    (name : IsName step)
    (stays : ∀ target, tree.lookup (directory ++ [step]) = some (.link target) →
      purpose.follows = false) :
    Leads tree purpose links here (front ++ [step])
      ⟨directory ++ [step], tree.lookup (directory ++ [step])⟩ := by
  generalize reached : (⟨directory, some .directory⟩ : Place) = there at leads
  have enters (front : List String) : (purpose = .newFile && front ++ [step] == [""]) = false := by
    refine (Bool.and_eq_false_iff).mpr (.inr (beq_false_of_ne fun same => ?_))
    exact name.ne_empty (List.append_inj_right' (same.trans (List.nil_append _).symm) rfl
      |> fun last => List.singleton_inj.mp last)
  induction leads with
  | arrived =>
    cases reached
    rcases found : tree.lookup (directory ++ [step]) with _ | _ | _ | target
    · exact .last name found trivial
    · exact .down name (Bool.and_false _) found .arrived
    · exact .last name found trivial
    · exact .last name found (stays target found)
  | blank nothing _ inductionHypothesis => exact .blank nothing (inductionHypothesis reached)
  | up visible back _ inductionHypothesis => exact .up visible back (inductionHypothesis reached)
  | last _ _ ends =>
    cases reached
    exact ends.elim
  | down name' _ found _ inductionHypothesis =>
    exact .down name' (enters _) found (inductionHypothesis reached)
  | through name' _ found _ _ inductionHypothesis =>
    have further := inductionHypothesis reached
    rw [List.append_assoc] at further
    exact .through name' (enters _) found (by simp) further

/-- A walk to a directory may end with a slash. -/
theorem Leads.snoc_blank
    (leads : Leads tree .target links here front ⟨directory, some .directory⟩) :
    Leads tree .target links here (front ++ [""]) ⟨directory, some .directory⟩ := by
  generalize reached : (⟨directory, some .directory⟩ : Place) = there at leads ⊢
  induction leads with
  | arrived => exact .blank rfl .arrived
  | blank nothing _ inductionHypothesis => exact .blank nothing (inductionHypothesis reached)
  | up visible back _ inductionHypothesis => exact .up visible back (inductionHypothesis reached)
  | last _ _ ends =>
    cases reached
    exact ends.elim
  | down name enters found _ inductionHypothesis =>
    exact .down name rfl found (inductionHypothesis reached)
  | through name enters found follows _ inductionHypothesis =>
    have further := inductionHypothesis reached
    rw [List.append_assoc] at further
    exact .through name rfl found (by simp [Purpose.follows]) further

/-! ### Free names and files -/

/-- A free name, or that of a file. -/
def Plain (node : Option Node) : Prop :=
  ∀ other, node = some other → ∃ mode content, other = .file mode content

theorem plain_none : Plain none :=
  fun _ => nofun

theorem plain_file {mode : Nat} {content : Bytes} : Plain (some (.file mode content)) :=
  fun _ same => ⟨mode, content, (Option.some.inj same).symm⟩

theorem Plain.ne_directory {node : Option Node} (plain : Plain node) : node ≠ some .directory := by
  rintro rfl
  obtain ⟨_, _, ⟨⟩⟩ := plain _ rfl

theorem Plain.ne_link {node : Option Node} (plain : Plain node) (target : String) :
    node ≠ some (.link target) := by
  rintro rfl
  obtain ⟨_, _, ⟨⟩⟩ := plain _ rfl

/-! ### Directories and links that stay -/

theorem lookup_erase_of_ne {other : Key} (different : other ≠ key) :
    (tree.erase key).lookup other = tree.lookup other := by
  cases other with
  | nil => rfl
  | cons name rest => exact lookup_filter_of_ne different

theorem lookup_erase_self (named : key ≠ []) : (tree.erase key).lookup key = none := by
  obtain ⟨name, rest, rfl⟩ := List.exists_cons_of_ne_nil named
  refine List.lookup_eq_none_iff.mpr fun entry member => ?_
  exact bne_iff_ne.mpr (bne_iff_ne.mp (List.mem_filter.mp member).2).symm

/-- Files among which directories and links stay what they are. -/
structure Stays (tree after : FileTree) : Prop where
  home : after.workingDirectory = tree.workingDirectory
  ways : ∀ ⦃key node⦄, tree.lookup key = some node → ¬ Plain (some node) →
    after.lookup key = some node

theorem not_plain_directory : ¬ Plain (some .directory) :=
  fun plain => plain.ne_directory rfl

theorem not_plain_link {target : String} : ¬ Plain (some (.link target)) :=
  fun plain => plain.ne_link target rfl

protected theorem Extends.stays (adds : Extends tree after) : Stays tree after :=
  ⟨adds.home, fun _ _ found _ => adds.keeps found⟩

/-- What is put in place of a free name or a file is no way. -/
theorem stays_insert (plain : Plain (tree.lookup key)) (node : Node) :
    Stays tree (tree.insert key node) := by
  refine ⟨rfl, fun other way found noPlain => ?_⟩
  rw [lookup_insert_of_ne, found]
  rintro rfl
  exact noPlain (found ▸ plain)

/-- A path still leads to a directory as long as directories and links stay. -/
theorem Leads.stays (leads : Leads tree .target links here steps ⟨directory, some .directory⟩)
    (stays : Stays tree after) :
    Leads after .target links here steps ⟨directory, some .directory⟩ := by
  generalize reached : (⟨directory, some .directory⟩ : Place) = there at leads
  induction leads with
  | arrived =>
    cases reached
    exact .arrived
  | blank nothing _ inductionHypothesis => exact .blank nothing (inductionHypothesis reached)
  | up visible back _ inductionHypothesis => exact .up visible back (inductionHypothesis reached)
  | last _ _ ends =>
    cases reached
    exact ends.elim
  | down name enters found _ inductionHypothesis =>
    exact .down name enters (stays.ways found not_plain_directory) (inductionHypothesis reached)
  | through name enters found follows _ inductionHypothesis =>
    exact .through name enters (stays.ways found not_plain_link) follows
      (inductionHypothesis reached)

theorem isDirectory_of_stays {path : String} (there : tree.isDirectory path = true)
    (stays : Stays tree after) : after.isDirectory path = true := by
  obtain ⟨directory, found⟩ := isDirectory_iff.mp there
  obtain ⟨good, leads⟩ := find_eq_ok_iff.mp (node_eq_ok_iff.mp found)
  have later := leads.stays stays
  rw [← start_eq stays.home] at later
  exact isDirectory_iff.mpr ⟨directory, node_eq_ok_iff.mpr (find_eq_ok_iff.mpr ⟨good, later⟩)⟩

theorem stays_erase (plain : Plain (tree.lookup key)) : Stays tree (tree.erase key) := by
  refine ⟨rfl, fun other way found noPlain => ?_⟩
  rw [lookup_erase_of_ne, found]
  rintro rfl
  exact noPlain (found ▸ plain)

/-! ### Names in a directory -/

/-- The path of a directory leads there; the empty one leads to where the walk begins. -/
def LeadsInto (tree : FileTree) (path : String) (directory : Key) : Prop :=
  Leads tree .target 40 (tree.start path) (Path.components path) ⟨directory, some .directory⟩

theorem LeadsInto.stays {path : String} (into : tree.LeadsInto path directory)
    (stays : Stays tree after) : after.LeadsInto path directory := by
  rw [LeadsInto, start_eq stays.home]
  exact Leads.stays into stays

theorem start_join {base name : String} (entry : Path.IsEntry name) :
    tree.start (Path.join base name) = tree.start base := by
  rw [start, start, Path.isAbsolute_join entry]

/-- To a directory that is there its path leads. -/
theorem exists_leadsInto {path : String} (there : FileAction.HasDirectory tree path) :
    ∃ directory, tree.LeadsInto path directory := by
  rcases there with empty | present
  · obtain rfl := String.isEmpty_iff.mp empty
    exact ⟨tree.workingDirectory, .arrived⟩
  · obtain ⟨directory, found⟩ := isDirectory_iff.mp present
    have leads := (find_eq_ok_iff.mp (node_eq_ok_iff.mp found)).2
    change Leads tree .target 40 (tree.start path) (Path.steps path) _ at leads
    rw [Path.steps] at leads
    split at leads
    · obtain ⟨middle, left, first, second⟩ := leads.split (List.cons_ne_nil _ _)
      exact ⟨middle, first⟩
    · rw [List.append_nil] at leads
      exact ⟨directory, leads⟩

/-- A path that leads to a name in a directory leads to what has this name there, unless that is a
link that is followed. -/
theorem LeadsInto.find {path name : String} (into : tree.LeadsInto path directory)
    (entry : Path.IsEntry name) (good : IsPath (Path.join path name))
    (stays : ∀ target, tree.lookup (directory ++ [name]) = some (.link target) →
      purpose.follows = false) :
    tree.find (Path.join path name) purpose =
      .ok ⟨directory ++ [name], tree.lookup (directory ++ [name])⟩ := by
  refine find_eq_ok_iff.mpr ⟨good, ?_⟩
  rw [start_join entry, Path.steps_join entry]
  exact Leads.snoc into entry.step stays

/-- The path of a directory in which something is looked up is a path, unless it is empty. -/
theorem isPath_of_join {path name : String} (entry : Path.IsEntry name)
    (good : IsPath (Path.join path name)) (named : path.isEmpty = false) : IsPath path := by
  have begins : ∃ rest, Path.join path name = path ++ rest := by
    rw [Path.join, entry.isAbsolute_eq, named]
    cases Path.namesDirectory path with
    | true => exact ⟨name, rfl⟩
    | false => exact ⟨"/" ++ name, String.append_assoc⟩
  obtain ⟨rest, spelled⟩ := begins
  obtain ⟨clear, _, short⟩ := good
  rw [spelled] at clear short
  refine ⟨?_, named, fun long => short ?_⟩
  · rw [String.toList_append] at clear
    refine eq_false_of_ne_true fun nul => ?_
    have still := List.mem_append_left rest.toList (List.contains_iff_mem.mp nul)
    exact absurd (List.contains_iff_mem.mpr still) (ne_true_of_eq_false clear)
  · rw [String.utf8ByteSize_append]
    omega

/-- A path that leads somewhere under a name in a directory shows that the directory is there. -/
theorem hasDirectory_of_find {path name : String} (entry : Path.IsEntry name)
    (found : tree.find (Path.join path name) purpose = .ok place) :
    FileAction.HasDirectory tree path := by
  obtain ⟨good, leads⟩ := find_eq_ok_iff.mp found
  rw [start_join entry, Path.steps_join entry] at leads
  obtain ⟨directory, _, into, _⟩ := leads.split (List.cons_ne_nil _ _)
  cases named : path.isEmpty with
  | true => exact .inl named
  | false =>
    have good := isPath_of_join entry good named
    refine .inr (isDirectory_iff.mpr
      ⟨directory, node_eq_ok_iff.mpr (find_eq_ok_iff.mpr ⟨good, ?_⟩)⟩)
    change Leads tree .target 40 (tree.start path) (Path.steps path) _
    rw [Path.steps]
    split
    · exact into.snoc_blank
    · rw [List.append_nil]
      exact into

/-! ### Contents -/

/-- What a file holds; `none` unless there is one. -/
def contentAt (tree : FileTree) (key : Key) : Option Bytes :=
  match tree.lookup key with
  | some (.file _ content) => some content
  | _ => none

theorem contentAt_congr {other : FileTree} (same : other.lookup key = tree.lookup key) :
    other.contentAt key = tree.contentAt key := by
  rw [contentAt, same, contentAt]

theorem contentAt_of_lookup {mode : Nat} {content : Bytes}
    (found : tree.lookup key = some (.file mode content)) : tree.contentAt key = some content := by
  rw [contentAt, found]

theorem lookup_of_contentAt {content : Bytes} (holds : tree.contentAt key = some content) :
    ∃ mode, tree.lookup key = some (.file mode content) := by
  rw [contentAt] at holds
  split at holds
  next mode content' found =>
    cases holds
    exact ⟨mode, found⟩
  next => cases holds

theorem lookup_eq_none_of_contentAt (plain : Plain (tree.lookup key))
    (empty : tree.contentAt key = none) : tree.lookup key = none := by
  cases found : tree.lookup key with
  | none => rfl
  | some node =>
    obtain ⟨mode, content, rfl⟩ := plain node found
    cases (contentAt_of_lookup found).symm.trans empty

/-- What is read under a name in a directory. -/
theorem LeadsInto.read {path name : String} (into : tree.LeadsInto path directory)
    (entry : Path.IsEntry name) (good : IsPath (Path.join path name))
    (noLink : ∀ target, tree.lookup (directory ++ [name]) ≠ some (.link target)) :
    (tree.read (Path.join path name)).toOption = tree.contentAt (directory ++ [name]) := by
  have found : tree.find (Path.join path name) .target = _ :=
    into.find entry good fun target link => absurd link (noLink target)
  rw [FileTree.read, FileTree.node, found, contentAt]
  rcases tree.lookup (directory ++ [name]) with _ | _ | _ | _
  all_goals rfl

end FileTree

end NicScope
