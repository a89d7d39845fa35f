/-
This file says where a path leads, step by step, and what becomes of that when files change. A
walk that succeeds has a course through names, directories and links; it takes the same course
for as long as what it met stays what it is, though the contents of files may change and new
files may be made under free names. So a path that led to a file still leads to it, and what was
a free name is at most the name of a file.
-/

import Mathlib.Logic.Basic
import NicScope.Host.FileTree

namespace NicScope

namespace FileTree

/-! ### What a name stands for -/

theorem lookup_filter_of_ne {nodes : List (Key × Node)} {key other : Key}
    (different : other ≠ key) :
    (nodes.filter fun entry => entry.1 != key).lookup other = nodes.lookup other := by
  induction nodes with
  | nil => rfl
  | cons entry rest inductionHypothesis =>
    obtain ⟨name, node⟩ := entry
    by_cases same : name = key
    · subst same
      rw [List.filter_cons_of_neg (by simp), inductionHypothesis, List.lookup_cons,
        beq_false_of_ne different]
    · rw [List.filter_cons_of_pos (by simpa using same), List.lookup_cons, List.lookup_cons,
        inductionHypothesis]

theorem lookup_insert_self {tree : FileTree} {key : Key} {node : Node} (named : key ≠ []) :
    (tree.insert key node).lookup key = some node := by
  cases key with
  | nil => exact absurd rfl named
  | cons name rest => simp [insert, lookup]

theorem lookup_insert_of_ne {tree : FileTree} {key other : Key} {node : Node}
    (different : other ≠ key) : (tree.insert key node).lookup other = tree.lookup other := by
  cases other with
  | nil => rfl
  | cons name rest =>
    simp only [insert, lookup]
    rw [List.lookup_cons, beq_false_of_ne different, lookup_filter_of_ne different]

/-- A name that is free is a name. -/
theorem ne_nil_of_lookup {tree : FileTree} {key : Key} {node : Option Node}
    (found : tree.lookup key = node) (other : node ≠ some .directory) : key ≠ [] := by
  rintro rfl
  exact other found.symm

/-! ### Courses of a walk -/

/-- A step of a walk that is the name of something. -/
structure IsName (step : String) : Prop where
  visible : (step.isEmpty || step == ".") = false
  down : (step == "..") = false
  short : ¬ step.utf8ByteSize > maxNameBytes

/-- What a walk may end with under the last name: anything but a directory, which is walked into,
and a link that is followed. -/
def Ends (purpose : Purpose) : Option Node → Prop
  | some .directory => False
  | some (.link _) => purpose.follows = false
  | _ => True

/-- Where the steps of a walk lead from a directory, through at most `links` links. -/
inductive Leads (tree : FileTree) (purpose : Purpose) : Nat → Key → List String → Place → Prop
  | arrived {links : Nat} {here : Key} : Leads tree purpose links here [] ⟨here, some .directory⟩
  | blank {links : Nat} {here : Key} {step : String} {rest : List String} {place : Place}
      (nothing : (step.isEmpty || step == ".") = true)
      (further : Leads tree purpose links here rest place) :
      Leads tree purpose links here (step :: rest) place
  | up {links : Nat} {here : Key} {step : String} {rest : List String} {place : Place}
      (visible : (step.isEmpty || step == ".") = false) (back : (step == "..") = true)
      (further : Leads tree purpose links here.dropLast rest place) :
      Leads tree purpose links here (step :: rest) place
  | last {links : Nat} {here : Key} {step : String} {node : Option Node} (name : IsName step)
      (found : tree.lookup (here ++ [step]) = node) (ends : Ends purpose node) :
      Leads tree purpose links here [step] ⟨here ++ [step], node⟩
  | down {links : Nat} {here : Key} {step : String} {rest : List String} {place : Place}
      (name : IsName step) (enters : (purpose = .newFile && rest == [""]) = false)
      (found : tree.lookup (here ++ [step]) = some .directory)
      (further : Leads tree purpose links (here ++ [step]) rest place) :
      Leads tree purpose links here (step :: rest) place
  | through {links : Nat} {here : Key} {step : String} {rest : List String} {target : String}
      {place : Place} (name : IsName step) (enters : (purpose = .newFile && rest == [""]) = false)
      (found : tree.lookup (here ++ [step]) = some (.link target))
      (follows : (rest.isEmpty && !purpose.follows) = false)
      (further : Leads tree purpose links (if Path.isAbsolute target then [] else here)
        (Path.steps target ++ rest) place) :
      Leads tree purpose (links + 1) here (step :: rest) place

variable {tree after : FileTree} {purpose : Purpose} {links : Nat} {here : Key}
  {steps : List String} {place : Place}

section Steps

variable {enter : Key → List String → Except Errno Place} {step : String} {rest : List String}

variable (purpose step rest) in
/-- A step leads to the directory itself or up, or it is refused, or it is a name. -/
theorem step_cases : (step.isEmpty || step == ".") = true ∨
    ((step.isEmpty || step == ".") = false ∧ (step == "..") = true) ∨
    (∃ cause, ∀ tree enter here,
      walkFrom tree purpose enter here (step :: rest) = .error cause) ∨
    (IsName step ∧ (purpose = .newFile && rest == [""]) = false) := by
  by_cases nothing : (step.isEmpty || step == ".") = true
  · exact .inl nothing
  by_cases back : (step == "..") = true
  · exact .inr (.inl ⟨eq_false_of_ne_true nothing, back⟩)
  by_cases closed : (purpose = .newFile && rest == [""]) = true
  · refine .inr (.inr (.inl ⟨.isDirectory, fun tree enter here => ?_⟩))
    rw [walkFrom, if_neg nothing, if_neg back, if_pos closed]
  by_cases long : step.utf8ByteSize > maxNameBytes
  · refine .inr (.inr (.inl ⟨.nameTooLong, fun tree enter here => ?_⟩))
    rw [walkFrom, if_neg nothing, if_neg back, if_neg closed, if_pos long]
  · exact .inr (.inr (.inr
      ⟨⟨eq_false_of_ne_true nothing, eq_false_of_ne_true back, long⟩, eq_false_of_ne_true closed⟩))

theorem walkFrom_blank (nothing : (step.isEmpty || step == ".") = true) :
    walkFrom tree purpose enter here (step :: rest) = walkFrom tree purpose enter here rest := by
  rw [walkFrom, if_pos nothing]

theorem walkFrom_up (visible : (step.isEmpty || step == ".") = false)
    (back : (step == "..") = true) :
    walkFrom tree purpose enter here (step :: rest) =
      walkFrom tree purpose enter here.dropLast rest := by
  rw [walkFrom, if_neg (ne_true_of_eq_false visible), if_pos back]

/-- How a walk goes on at a name, by what it stands for. -/
def goOn (tree : FileTree) (purpose : Purpose) (enter : Key → List String → Except Errno Place)
    (here : Key) (step : String) (rest : List String) : Option Node → Except Errno Place
  | none => if rest.isEmpty then .ok ⟨here ++ [step], none⟩ else .error .noEntry
  | some .directory => walkFrom tree purpose enter (here ++ [step]) rest
  | some (.file mode content) =>
    if rest.isEmpty then .ok ⟨here ++ [step], some (.file mode content)⟩ else .error .notDirectory
  | some (.link target) =>
    if rest.isEmpty && !purpose.follows then .ok ⟨here ++ [step], some (.link target)⟩
    else enter (if Path.isAbsolute target then [] else here) (Path.steps target ++ rest)

theorem walkFrom_name (name : IsName step)
    (enters : (purpose = .newFile && rest == [""]) = false) :
    walkFrom tree purpose enter here (step :: rest) =
      goOn tree purpose enter here step rest (tree.lookup (here ++ [step])) := by
  rw [walkFrom, if_neg (ne_true_of_eq_false name.visible), if_neg (ne_true_of_eq_false name.down),
    if_neg (ne_true_of_eq_false enters), if_neg name.short]
  dsimp only
  rcases tree.lookup (here ++ [step]) with _ | _ | _ | _
  all_goals rfl

end Steps

/-- How a walk goes on through a link, when it may go through `links` more of them. -/
def beyond (tree : FileTree) (purpose : Purpose) : Nat → Key → List String → Except Errno Place
  | 0 => fun _ _ => .error .tooManyLinks
  | links + 1 => walk tree purpose links

theorem walk_eq (tree : FileTree) (purpose : Purpose) (links : Nat) :
    walk tree purpose links = walkFrom tree purpose (beyond tree purpose links) := by
  cases links <;> rfl

/-- A walk that succeeds has a course. -/
theorem leads_of_walkFrom
    (goes : ∀ ⦃here steps place⦄, beyond tree purpose links here steps = .ok place →
      ∃ fewer, links = fewer + 1 ∧ Leads tree purpose fewer here steps place)
    (walked : walkFrom tree purpose (beyond tree purpose links) here steps = .ok place) :
    Leads tree purpose links here steps place := by
  induction steps generalizing here with
  | nil =>
    cases walked
    exact .arrived
  | cons step rest inductionHypothesis =>
    rcases step_cases purpose step rest with
      nothing | ⟨visible, back⟩ | ⟨cause, refused⟩ | ⟨name, enters⟩
    · rw [walkFrom_blank nothing] at walked
      exact .blank nothing (inductionHypothesis walked)
    · rw [walkFrom_up visible back] at walked
      exact .up visible back (inductionHypothesis walked)
    · cases (refused _ _ _).symm.trans walked
    · rw [walkFrom_name name enters] at walked
      rcases found : tree.lookup (here ++ [step]) with _ | _ | _ | target
      all_goals rw [found, goOn] at walked
      · split at walked
        next none =>
          obtain rfl := List.isEmpty_iff.mp none
          cases walked
          exact .last name found trivial
        next => cases walked
      · exact .down name enters found (inductionHypothesis walked)
      · split at walked
        next none =>
          obtain rfl := List.isEmpty_iff.mp none
          cases walked
          exact .last name found trivial
        next => cases walked
      · split at walked
        next stays =>
          rw [Bool.and_eq_true, Bool.not_eq_true'] at stays
          obtain rfl := List.isEmpty_iff.mp stays.1
          cases walked
          exact .last name found stays.2
        next follows =>
          obtain ⟨fewer, rfl, further⟩ := goes walked
          exact .through name enters found (eq_false_of_ne_true follows) further

theorem leads_of_walk (walked : walk tree purpose links here steps = .ok place) :
    Leads tree purpose links here steps place := by
  induction links generalizing here steps place with
  | zero =>
    rw [walk_eq] at walked
    exact leads_of_walkFrom (fun _ _ _ => nofun) walked
  | succ links inductionHypothesis =>
    rw [walk_eq] at walked
    exact leads_of_walkFrom (fun _ _ _ entered => ⟨links, rfl, inductionHypothesis entered⟩) walked

theorem walk_of_leads (leads : Leads tree purpose links here steps place) :
    walk tree purpose links here steps = .ok place := by
  induction leads with
  | arrived => rw [walk_eq, walkFrom]
  | blank nothing further inductionHypothesis =>
    rw [walk_eq] at inductionHypothesis ⊢
    rw [walkFrom_blank nothing, inductionHypothesis]
  | up visible back further inductionHypothesis =>
    rw [walk_eq] at inductionHypothesis ⊢
    rw [walkFrom_up visible back, inductionHypothesis]
  | @last links here step node name found ends =>
    rw [walk_eq, walkFrom_name name (Bool.and_false _), found]
    match node, ends with
    | none, _ => rfl
    | some (.file _ _), _ => rfl
    | some (.link _), stays => simp [goOn, show purpose.follows = false from stays]
  | down name enters found further inductionHypothesis =>
    rw [walk_eq] at inductionHypothesis ⊢
    rw [walkFrom_name name enters, found]
    exact inductionHypothesis
  | through name enters found follows further inductionHypothesis =>
    rw [walk_eq, walkFrom_name name enters, found, goOn, if_neg (ne_true_of_eq_false follows)]
    exact inductionHypothesis

/-! ### What a walk comes to -/

/-- A walk comes to a directory, or to what a name stands for. -/
theorem Leads.lookup (leads : Leads tree purpose links here steps place) :
    place.node = some .directory ∨ tree.lookup place.key = place.node := by
  induction leads with
  | arrived => exact .inl rfl
  | last _ found => exact .inr found
  | blank _ _ inductionHypothesis | up _ _ _ inductionHypothesis
  | down _ _ _ _ inductionHypothesis | through _ _ _ _ _ inductionHypothesis =>
    exact inductionHypothesis

/-- A place for a new file is also where the path leads. -/
theorem Leads.target_of_newFile (leads : Leads tree .newFile links here steps place) :
    Leads tree .target links here steps place := by
  induction leads with
  | arrived => exact .arrived
  | blank nothing _ inductionHypothesis => exact .blank nothing inductionHypothesis
  | up visible back _ inductionHypothesis => exact .up visible back inductionHypothesis
  | last name found ends => exact .last name found (by unfold Ends at ends ⊢; exact ends)
  | down name _ found _ inductionHypothesis => exact .down name rfl found inductionHypothesis
  | through name _ found _ _ inductionHypothesis =>
    exact .through name rfl found (by simp [Purpose.follows]) inductionHypothesis

/-- Where a path leads is what its last name stands for, unless that is a link. -/
theorem Leads.target_of_name (leads : Leads tree .name links here steps place)
    (other : ∀ target, place.node ≠ some (.link target)) :
    Leads tree .target links here steps place := by
  induction leads with
  | arrived => exact .arrived
  | blank nothing _ inductionHypothesis => exact .blank nothing (inductionHypothesis other)
  | up visible back _ inductionHypothesis => exact .up visible back (inductionHypothesis other)
  | @last links here step node name found ends =>
    refine .last name found ?_
    match node, ends, other with
    | none, _, _ | some (.file _ _), _, _ => trivial
    | some (.link target), _, other => exact absurd rfl (other target)
  | down name _ found _ inductionHypothesis =>
    exact .down name rfl found (inductionHypothesis other)
  | through name _ found _ _ inductionHypothesis =>
    exact .through name rfl found (by simp [Purpose.follows]) (inductionHypothesis other)

/-- Steps with a slash behind them, or none. -/
def Slashed (tail : List String) : Prop :=
  tail = [] ∨ tail = [""]

/-- Where a path leads, there is something of its last name: no directory can be made of it. -/
theorem Leads.newDirectory_of_target {list tail : List String}
    (leads : Leads tree .target links here (list ++ tail) place) (present : place.node ≠ none) :
    ∃ there, Leads tree .newDirectory links here list there ∧ there.node ≠ none := by
  generalize whole : list ++ tail = steps at leads
  induction leads generalizing list with
  | arrived =>
    obtain ⟨rfl, rfl⟩ := List.append_eq_nil_iff.mp whole
    exact ⟨_, .arrived, nofun⟩
  | blank nothing _ inductionHypothesis =>
    cases list with
    | nil => exact ⟨_, .arrived, nofun⟩
    | cons step rest =>
      cases whole
      obtain ⟨there, further, found⟩ := inductionHypothesis present rfl
      exact ⟨there, .blank nothing further, found⟩
  | up visible back _ inductionHypothesis =>
    cases list with
    | nil => exact ⟨_, .arrived, nofun⟩
    | cons step rest =>
      cases whole
      obtain ⟨there, further, found⟩ := inductionHypothesis present rfl
      exact ⟨there, .up visible back further, found⟩
  | @last links here step node name found ends =>
    cases list with
    | nil => exact ⟨_, .arrived, nofun⟩
    | cons step rest =>
      obtain ⟨rfl, empty⟩ := List.cons.inj whole
      obtain ⟨rfl, rfl⟩ := List.append_eq_nil_iff.mp empty
      refine ⟨_, .last name found ?_, present⟩
      match node, ends with
      | none, _ => trivial
      | some (.file _ _), _ => trivial
      | some (.link _), _ => rfl
  | down name _ found _ inductionHypothesis =>
    cases list with
    | nil => exact ⟨_, .arrived, nofun⟩
    | cons step rest =>
      cases whole
      obtain ⟨there, further, found'⟩ := inductionHypothesis present rfl
      exact ⟨there, .down name rfl found further, found'⟩
  | @through links here step rest target place name _ found _ _ inductionHypothesis =>
    cases list with
    | nil => exact ⟨_, .arrived, nofun⟩
    | cons step list =>
      cases whole
      cases list with
      | nil => exact ⟨_, .last name found rfl, nofun⟩
      | cons next others =>
        obtain ⟨there, further, found'⟩ := inductionHypothesis present (List.append_assoc _ _ _)
        exact ⟨there, .through name rfl found rfl further, found'⟩

/-- Once a directory is made of a free name, the path leads to it. -/
theorem Leads.target_of_newDirectory {list tail : List String} (slashed : Slashed tail)
    (leads : Leads tree .newDirectory links here list place) (free : tree.lookup place.key = none) :
    Leads (tree.insert place.key .directory) .target links here (list ++ tail)
      ⟨place.key, some .directory⟩ := by
  have named := ne_nil_of_lookup free nofun
  have others {key : Key} {node : Node} (found : tree.lookup key = some node) :
      (tree.insert place.key .directory).lookup key = some node := by
    rw [lookup_insert_of_ne, found]
    rintro rfl
    cases free.symm.trans found
  induction leads with
  | arrived =>
    rcases slashed with rfl | rfl
    · exact .arrived
    · exact .blank rfl .arrived
  | blank nothing _ inductionHypothesis =>
    exact .blank nothing (inductionHypothesis free named others)
  | up visible back _ inductionHypothesis =>
    exact .up visible back (inductionHypothesis free named others)
  | last name found _ =>
    refine .down name rfl (lookup_insert_self named) ?_
    rcases slashed with rfl | rfl
    · exact .arrived
    · exact .blank rfl .arrived
  | down name _ found _ inductionHypothesis =>
    exact .down name rfl (others found) (inductionHypothesis free named others)
  | through name _ found follows _ inductionHypothesis =>
    refine .through name rfl (others found) (by simp [Purpose.follows]) ?_
    have further := inductionHypothesis free named others
    rw [List.append_assoc] at further
    exact further

/-! ### Walks through files that change -/

/-- What may become of what a name stands for: directories and links stay, the contents of files may
change, and of a free name a file may be made. -/
inductive Becomes : Option Node → Option Node → Prop
  | free : Becomes none none
  | made {mode : Nat} {content : Bytes} : Becomes none (some (.file mode content))
  | directory : Becomes (some .directory) (some .directory)
  | link {target : String} : Becomes (some (.link target)) (some (.link target))
  | file {mode mode' : Nat} {content content' : Bytes} :
      Becomes (some (.file mode content)) (some (.file mode' content'))

/-- Files to which others are added; what there was stays what it is, but for the contents of
files. -/
structure Grows (tree after : FileTree) : Prop where
  home : after.workingDirectory = tree.workingDirectory
  keeps : ∀ ⦃key node⦄, tree.lookup key = some node → Becomes (some node) (after.lookup key)

/-- A walk takes the same course through files that have grown, unless something else than a file
was made where it ended with a free name. -/
theorem Leads.grown (leads : Leads tree purpose links here steps place) (grows : Grows tree after)
    (free : place.node = none → Becomes none (after.lookup place.key)) :
    ∃ node, Leads after purpose links here steps ⟨place.key, node⟩ ∧ Becomes place.node node := by
  induction leads with
  | arrived => exact ⟨_, .arrived, .directory⟩
  | blank nothing _ inductionHypothesis =>
    obtain ⟨node, further, becomes⟩ := inductionHypothesis free
    exact ⟨node, .blank nothing further, becomes⟩
  | up visible back _ inductionHypothesis =>
    obtain ⟨node, further, becomes⟩ := inductionHypothesis free
    exact ⟨node, .up visible back further, becomes⟩
  | @last links here step node name found ends =>
    have becomes : Becomes node (after.lookup (here ++ [step])) := by
      cases node with
      | none => exact free rfl
      | some node => exact grows.keeps found
    refine ⟨after.lookup (here ++ [step]), .last name rfl ?_, becomes⟩
    generalize after.lookup (here ++ [step]) = later at becomes
    cases becomes with
    | directory => exact ends
    | link => exact ends
    | _ => trivial
  | down name enters found _ inductionHypothesis =>
    obtain ⟨node, further, becomes⟩ := inductionHypothesis free
    have stays := grows.keeps found
    generalize same : after.lookup _ = later at stays
    cases stays
    exact ⟨node, .down name enters same further, becomes⟩
  | through name enters found follows _ inductionHypothesis =>
    obtain ⟨node, further, becomes⟩ := inductionHypothesis free
    have stays := grows.keeps found
    generalize same : after.lookup _ = later at stays
    cases stays
    exact ⟨node, .through name enters same follows further, becomes⟩

/-- Files to which others are added, and nothing else. -/
structure Extends (tree after : FileTree) : Prop where
  home : after.workingDirectory = tree.workingDirectory
  keeps : ∀ ⦃key node⦄, tree.lookup key = some node → after.lookup key = some node

/-- Files among which nothing but files is made. -/
structure Steady (tree after : FileTree) : Prop where
  home : after.workingDirectory = tree.workingDirectory
  becomes : ∀ key, Becomes (tree.lookup key) (after.lookup key)

protected theorem Becomes.refl (node : Option Node) : Becomes node node := by
  match node with
  | none => exact .free
  | some .directory => exact .directory
  | some (.file _ _) => exact .file
  | some (.link _) => exact .link

protected theorem Becomes.trans {first second third : Option Node} (one : Becomes first second)
    (other : Becomes second third) : Becomes first third := by
  cases one <;> cases other <;> constructor

protected theorem Steady.grows (steady : Steady tree after) : Grows tree after :=
  ⟨steady.home, fun key _ found => found ▸ steady.becomes key⟩

protected theorem Steady.refl (tree : FileTree) : Steady tree tree :=
  ⟨rfl, fun _ => .refl _⟩

protected theorem Steady.trans {middle : FileTree} (first : Steady tree middle)
    (second : Steady middle after) : Steady tree after :=
  ⟨second.home.trans first.home, fun key => (first.becomes key).trans (second.becomes key)⟩

protected theorem Extends.grows (adds : Extends tree after) : Grows tree after :=
  ⟨adds.home, fun _ _ found => (adds.keeps found).symm ▸ .refl _⟩

protected theorem Extends.refl (tree : FileTree) : Extends tree tree :=
  ⟨rfl, fun _ _ found => found⟩

protected theorem Extends.trans {middle : FileTree} (first : Extends tree middle)
    (second : Extends middle after) : Extends tree after :=
  ⟨second.home.trans first.home, fun _ _ found => second.keeps (first.keeps found)⟩

/-- Something is made under a free name. -/
theorem extends_insert {key : Key} {node : Node} (free : tree.lookup key = none) :
    Extends tree (tree.insert key node) := by
  refine ⟨rfl, fun other node found => ?_⟩
  rw [lookup_insert_of_ne, found]
  rintro rfl
  cases free.symm.trans found

/-- A file is made under a free name, or changed. -/
theorem steady_insert {key : Key} {mode : Nat} {content : Bytes}
    (takes : Becomes (tree.lookup key) (some (.file mode content))) :
    Steady tree (tree.insert key (.file mode content)) := by
  refine ⟨rfl, fun other => ?_⟩
  by_cases same : other = key
  · subst same
    rw [lookup_insert_self]
    · exact takes
    · rintro rfl
      cases takes
  · rw [lookup_insert_of_ne same]
    exact .refl _

/-! ### Paths -/

/-- A path that the system looks at. -/
structure IsPath (path : String) : Prop where
  clear : path.toList.contains '\x00' = false
  nonempty : path.isEmpty = false
  short : ¬ path.utf8ByteSize ≥ maxPathBytes

variable {path : String} {key : Key} {node : Node}

theorem find_eq_ok_iff :
    tree.find path purpose = .ok place ↔
      IsPath path ∧ Leads tree purpose 40 (tree.start path) (purpose.steps path) place := by
  rw [find]
  split
  next nul => exact iff_of_false nofun fun found => absurd nul (ne_true_of_eq_false found.1.clear)
  next clear =>
    split
    next empty =>
      exact iff_of_false nofun fun found => absurd empty (ne_true_of_eq_false found.1.nonempty)
    next nonempty =>
      split
      next long => exact iff_of_false nofun fun found => found.1.short long
      next short =>
        have good : IsPath path := ⟨eq_false_of_ne_true clear, eq_false_of_ne_true nonempty, short⟩
        rw [and_iff_right good]
        constructor
        · intro found
          cases walked : walk tree purpose 40 (tree.start path) (purpose.steps path) with
          | ok there =>
            rw [walked] at found
            cases found
            exact leads_of_walk walked
          | error cause =>
            rw [walked] at found
            cases found
        · intro leads
          rw [walk_of_leads leads]
          rfl

theorem node_eq_ok_iff :
    tree.node path = .ok (key, node) ↔ tree.find path .target = .ok ⟨key, some node⟩ := by
  rw [FileTree.node]
  rcases tree.find path .target with cause | ⟨there, _ | found⟩
  · exact iff_of_false nofun nofun
  · exact iff_of_false nofun nofun
  · constructor
    · rintro ⟨⟩
      rfl
    · rintro ⟨⟩
      rfl

/-- A path that leads to a free name or to a file leads to the name of that. -/
theorem lookup_of_find {found : Option Node} (leads : tree.find path purpose = .ok ⟨key, found⟩)
    (other : found ≠ some .directory) : tree.lookup key = found := by
  obtain ⟨_, leads⟩ := find_eq_ok_iff.mp leads
  exact leads.lookup.resolve_left other

/-- A place for a new file is where the path leads. -/
theorem find_target_of_newFile (found : tree.find path .newFile = .ok place) :
    tree.find path .target = .ok place := by
  obtain ⟨good, leads⟩ := find_eq_ok_iff.mp found
  exact find_eq_ok_iff.mpr ⟨good, leads.target_of_newFile⟩

/-- So is what the last name stands for, unless that is a link. -/
theorem find_target_of_name (found : tree.find path .name = .ok place)
    (other : ∀ target, place.node ≠ some (.link target)) :
    tree.find path .target = .ok place := by
  obtain ⟨good, leads⟩ := find_eq_ok_iff.mp found
  exact find_eq_ok_iff.mpr ⟨good, leads.target_of_name other⟩

/-- What a new file would be made of is what the path leads to. -/
theorem node_of_newFile (found : tree.find path .newFile = .ok ⟨key, some node⟩) :
    tree.node path = .ok (key, node) :=
  node_eq_ok_iff.mpr (find_target_of_newFile found)

theorem isDirectory_iff :
    tree.isDirectory path = true ↔ ∃ key, tree.node path = .ok (key, .directory) := by
  rw [isDirectory]
  split
  next key same => exact iff_of_true rfl ⟨key, same⟩
  next other => exact iff_of_false nofun fun ⟨key, same⟩ => other key same

section Grown

variable (grows : Grows tree after)

include grows

theorem find_of_grows (found : tree.find path purpose = .ok place)
    (free : place.node = none → Becomes none (after.lookup place.key)) :
    ∃ node, after.find path purpose = .ok ⟨place.key, node⟩ ∧ Becomes place.node node := by
  obtain ⟨good, leads⟩ := find_eq_ok_iff.mp found
  obtain ⟨node, later, becomes⟩ := leads.grown grows free
  have start : after.start path = tree.start path := by
    rw [FileTree.start, grows.home, FileTree.start]
  exact ⟨node, find_eq_ok_iff.mpr ⟨good, start ▸ later⟩, becomes⟩

theorem node_of_grows (found : tree.node path = .ok (key, node)) :
    ∃ node', after.node path = .ok (key, node') ∧ Becomes (some node) (some node') := by
  obtain ⟨node', later, becomes⟩ := find_of_grows grows (node_eq_ok_iff.mp found) nofun
  cases node' with
  | none => cases becomes
  | some node' => exact ⟨node', node_eq_ok_iff.mpr later, becomes⟩

/-- A path that leads to a file still leads there, though the file may have changed. -/
theorem find_file_of_grows {mode mode' : Nat} {content content' : Bytes}
    (found : tree.find path purpose = .ok ⟨key, some (.file mode content)⟩)
    (later : after.lookup key = some (.file mode' content')) :
    after.find path purpose = .ok ⟨key, some (.file mode' content')⟩ := by
  obtain ⟨node, leads, becomes⟩ := find_of_grows grows found nofun
  cases becomes with
  | file =>
    rw [leads, ← lookup_of_find leads nofun, later]

theorem isDirectory_of_grows (found : tree.isDirectory path = true) :
    after.isDirectory path = true := by
  obtain ⟨key, leads⟩ := isDirectory_iff.mp found
  obtain ⟨_, later, becomes⟩ := node_of_grows grows leads
  cases becomes with
  | directory => exact isDirectory_iff.mpr ⟨key, later⟩

end Grown

/-- Nothing can be made under the name of a directory. -/
theorem present_of_isDirectory (found : tree.isDirectory path = true) :
    ∃ key node, tree.find path .newDirectory = .ok ⟨key, some node⟩ := by
  obtain ⟨key, leads⟩ := isDirectory_iff.mp found
  obtain ⟨good, leads⟩ := find_eq_ok_iff.mp (node_eq_ok_iff.mp leads)
  obtain ⟨⟨there, node⟩, further, present⟩ := Leads.newDirectory_of_target leads nofun
  cases node with
  | none => exact absurd rfl present
  | some node => exact ⟨there, node, find_eq_ok_iff.mpr ⟨good, further⟩⟩

/-- Where a directory is made, the path leads to a directory. -/
theorem isDirectory_insert (free : tree.find path .newDirectory = .ok ⟨key, none⟩) :
    tree.lookup key = none ∧ (tree.insert key .directory).isDirectory path = true := by
  have none := lookup_of_find free nofun
  obtain ⟨good, leads⟩ := find_eq_ok_iff.mp free
  have slashed : Slashed (if Path.namesDirectory path then [""] else []) := by
    split
    · exact .inr rfl
    · exact .inl rfl
  have later := leads.target_of_newDirectory slashed none
  exact ⟨none, isDirectory_iff.mpr ⟨key, node_eq_ok_iff.mpr (find_eq_ok_iff.mpr ⟨good, later⟩)⟩⟩

end FileTree

end NicScope
