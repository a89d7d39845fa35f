/-
This file says which names a walk looks up, and that nothing else decides where it leads. Two trees
that are the same under these names lead a walk to the same place; if they are the same but for
the name that the walk ends with, it ends with that name in both. So what is put where a path does
not look makes no difference to the path.
-/

import NicScope.Proofs.Host.Walking

namespace NicScope

namespace FileTree

/-! ### Names that are looked up -/

/-- The names that a walk looks up on its way through at most `links` links, each with the steps
that are left then. -/
inductive Looks (tree : FileTree) (purpose : Purpose) :
    Nat → Key → List String → Key → List String → Prop
  | name {links : Nat} {here : Key} {step : String} {rest : List String} (name : IsName step)
      (enters : (purpose = .newFile && rest == [""]) = false) :
      Looks tree purpose links here (step :: rest) (here ++ [step]) rest
  | blank {links : Nat} {here : Key} {step : String} {rest : List String} {key : Key}
      {left : List String} (nothing : (step.isEmpty || step == ".") = true)
      (further : Looks tree purpose links here rest key left) :
      Looks tree purpose links here (step :: rest) key left
  | up {links : Nat} {here : Key} {step : String} {rest : List String} {key : Key}
      {left : List String} (visible : (step.isEmpty || step == ".") = false)
      (back : (step == "..") = true)
      (further : Looks tree purpose links here.dropLast rest key left) :
      Looks tree purpose links here (step :: rest) key left
  | down {links : Nat} {here : Key} {step : String} {rest : List String} {key : Key}
      {left : List String} (name : IsName step)
      (enters : (purpose = .newFile && rest == [""]) = false)
      (found : tree.lookup (here ++ [step]) = some .directory)
      (further : Looks tree purpose links (here ++ [step]) rest key left) :
      Looks tree purpose links here (step :: rest) key left
  | through {links : Nat} {here : Key} {step : String} {rest : List String} {target : String}
      {key : Key} {left : List String} (name : IsName step)
      (enters : (purpose = .newFile && rest == [""]) = false)
      (found : tree.lookup (here ++ [step]) = some (.link target))
      (follows : (rest.isEmpty && !purpose.follows) = false)
      (further : Looks tree purpose links (if Path.isAbsolute target then [] else here)
        (Path.steps target ++ rest) key left) :
      Looks tree purpose (links + 1) here (step :: rest) key left

variable {tree other : FileTree} {purpose : Purpose} {links : Nat} {here stop : Key}
  {steps : List String}

/-- In trees that add to others, walks look up more names at most. -/
theorem Looks.extended {key : Key} {left : List String}
    (looks : Looks tree purpose links here steps key left) (adds : Extends tree other) :
    Looks other purpose links here steps key left := by
  induction looks with
  | name name enters => exact .name name enters
  | blank nothing _ inductionHypothesis => exact .blank nothing inductionHypothesis
  | up visible back _ inductionHypothesis => exact .up visible back inductionHypothesis
  | down name enters found _ inductionHypothesis =>
    exact .down name enters (adds.keeps found) inductionHypothesis
  | through name enters found follows _ inductionHypothesis =>
    exact .through name enters (adds.keeps found) follows inductionHypothesis

/-- Where nothing but files is made, walks look up no other names: none is looked up behind a
file. -/
theorem Looks.steady {key : Key} {left : List String}
    (looks : Looks other purpose links here steps key left) (steady : Steady tree other) :
    Looks tree purpose links here steps key left := by
  induction looks with
  | name name enters => exact .name name enters
  | blank nothing _ inductionHypothesis => exact .blank nothing inductionHypothesis
  | up visible back _ inductionHypothesis => exact .up visible back inductionHypothesis
  | @down links here step rest key left name enters found _ inductionHypothesis =>
    have becomes := steady.becomes (here ++ [step])
    rw [found] at becomes
    generalize before : tree.lookup (here ++ [step]) = node at becomes
    cases becomes
    exact .down name enters before inductionHypothesis
  | @through links here step rest target key left name enters found follows _ inductionHypothesis =>
    have becomes := steady.becomes (here ++ [step])
    rw [found] at becomes
    generalize before : tree.lookup (here ++ [step]) = node at becomes
    cases becomes
    exact .through name enters before follows inductionHypothesis

/-- A walk that does not follow the last name ends with the name that it looks up with no steps
left. -/
theorem Looks.leads {key : Key} (looks : Looks tree purpose links here steps key [])
    (stays : purpose.follows = false) :
    Leads tree purpose links here steps ⟨key, tree.lookup key⟩ := by
  generalize ended : ([] : List String) = left at looks
  induction looks with
  | @name links here step rest name enters =>
    subst ended
    rcases found : tree.lookup (here ++ [step]) with _ | _ | _ | target
    · exact .last name found trivial
    · exact .down name enters found .arrived
    · exact .last name found trivial
    · exact .last name found stays
  | blank nothing _ inductionHypothesis => exact .blank nothing (inductionHypothesis ended)
  | up visible back _ inductionHypothesis => exact .up visible back (inductionHypothesis ended)
  | down name enters found _ inductionHypothesis =>
    exact .down name enters found (inductionHypothesis ended)
  | through name enters found follows _ inductionHypothesis =>
    exact .through name enters found follows (inductionHypothesis ended)

/-! ### Walks in trees that are alike -/

/-- What walks lead to in two trees that are the same where they look: to the same, or under the
name `stop` to what each tree has there. -/
def Meet (stop : Key) (tree other : FileTree) (first second : Except Errno Place) : Prop :=
  second = first ∨ (first = .ok ⟨stop, tree.lookup stop⟩ ∧ second = .ok ⟨stop, other.lookup stop⟩)

/-- The trees are the same under a name that is looked up, or it is the last one and the walk ends
there, whatever it stands for. -/
def SameAt (stop : Key) (purpose : Purpose) (tree other : FileTree) (key : Key)
    (left : List String) : Prop :=
  other.lookup key = tree.lookup key ∨ (key = stop ∧ left = [] ∧ purpose.follows = false)

/-- A walk that does not follow the last name ends with it. -/
theorem walkFrom_last {enter : Key → List String → Except Errno Place} {step : String}
    (name : IsName step) (stays : purpose.follows = false) :
    walkFrom tree purpose enter here [step] =
      .ok ⟨here ++ [step], tree.lookup (here ++ [step])⟩ := by
  rw [walkFrom_name name (Bool.and_false _)]
  cases found : tree.lookup (here ++ [step]) with
  | none => rfl
  | some node =>
    cases node with
    | directory => rfl
    | file mode content => rfl
    | link target => simp [goOn, stays]

theorem meet_walkFrom
    (enters : ∀ fewer, links = fewer + 1 → ∀ here steps,
      (∀ key left, Looks tree purpose fewer here steps key left →
        SameAt stop purpose tree other key left) →
      Meet stop tree other (walk tree purpose fewer here steps)
        (walk other purpose fewer here steps))
    (same : ∀ key left, Looks tree purpose links here steps key left →
      SameAt stop purpose tree other key left) :
    Meet stop tree other (walkFrom tree purpose (beyond tree purpose links) here steps)
      (walkFrom other purpose (beyond other purpose links) here steps) := by
  induction steps generalizing here with
  | nil => exact .inl rfl
  | cons step rest inductionHypothesis =>
    rcases step_cases purpose step rest with
      nothing | ⟨visible, back⟩ | ⟨cause, refused⟩ | ⟨name, room⟩
    · rw [walkFrom_blank nothing, walkFrom_blank nothing]
      exact inductionHypothesis fun key left looks => same key left (.blank nothing looks)
    · rw [walkFrom_up visible back, walkFrom_up visible back]
      exact inductionHypothesis fun key left looks => same key left (.up visible back looks)
    · rw [refused, refused]
      exact .inl rfl
    · rcases same (here ++ [step]) rest (.name name room) with alike | ⟨last, rfl, stays⟩
      · rw [walkFrom_name name room, walkFrom_name name room, alike]
        cases found : tree.lookup (here ++ [step]) with
        | none => exact .inl rfl
        | some node =>
          cases node with
          | directory =>
            exact inductionHypothesis fun key left looks =>
              same key left (.down name room found looks)
          | file mode content => exact .inl rfl
          | link target =>
            rw [goOn, goOn]
            by_cases stays : (rest.isEmpty && !purpose.follows) = true
            · rw [if_pos stays, if_pos stays]
              exact .inl rfl
            · rw [if_neg stays, if_neg stays]
              cases links with
              | zero => exact .inl rfl
              | succ fewer =>
                exact enters fewer rfl _ _ fun key left looks =>
                  same key left (.through name room found (eq_false_of_ne_true stays) looks)
      · subst last
        exact .inr ⟨walkFrom_last name stays, walkFrom_last name stays⟩

theorem meet_walk (same : ∀ key left, Looks tree purpose links here steps key left →
      SameAt stop purpose tree other key left) :
    Meet stop tree other (walk tree purpose links here steps)
      (walk other purpose links here steps) := by
  induction links generalizing here steps with
  | zero =>
    rw [walk_eq, walk_eq]
    exact meet_walkFrom (fun _ => nofun) same
  | succ links inductionHypothesis =>
    rw [walk_eq, walk_eq]
    refine meet_walkFrom (fun fewer more here steps same => ?_) same
    obtain rfl := Nat.succ.inj more
    exact inductionHypothesis same

/-! ### Paths -/

/-- The names that are looked up along a path, each with the steps that are left then. -/
def LooksAlong (tree : FileTree) (path : String) (purpose : Purpose) (key : Key)
    (left : List String) : Prop :=
  IsPath path ∧ Looks tree purpose 40 (tree.start path) (purpose.steps path) key left

variable {path : String}

theorem start_eq (home : other.workingDirectory = tree.workingDirectory) :
    other.start path = tree.start path := by
  rw [FileTree.start, home, FileTree.start]

theorem find_of_isPath (good : IsPath path) : tree.find path purpose =
    (walk tree purpose 40 (tree.start path) (purpose.steps path)).mapError .system := by
  rw [find, if_neg (ne_true_of_eq_false good.clear), if_neg (ne_true_of_eq_false good.nonempty),
    if_neg good.short]

/-- A path that the system does not look at leads nowhere, in any tree. -/
theorem find_of_not_isPath (bad : ¬ IsPath path) :
    other.find path purpose = tree.find path purpose := by
  rw [find, find]
  split
  · rfl
  next clear =>
    split
    · rfl
    next nonempty =>
      split
      · rfl
      next short =>
        exact absurd ⟨eq_false_of_ne_true clear, eq_false_of_ne_true nonempty, short⟩ bad

/-- Where trees are alike along a path, it leads to the same, or to what each tree has under the
name `stop`. -/
theorem meet_find (stop : Key) (home : other.workingDirectory = tree.workingDirectory)
    (same : ∀ key left, tree.LooksAlong path purpose key left →
      SameAt stop purpose tree other key left) :
    other.find path purpose = tree.find path purpose ∨
      (tree.find path purpose = .ok ⟨stop, tree.lookup stop⟩ ∧
        other.find path purpose = .ok ⟨stop, other.lookup stop⟩) := by
  by_cases good : IsPath path
  · rw [find_of_isPath good, find_of_isPath good, start_eq home]
    rcases meet_walk fun key left looks => same key left ⟨good, looks⟩ with equal | ⟨first, second⟩
    · exact .inl (by rw [equal])
    · exact .inr ⟨by rw [first]; rfl, by rw [second]; rfl⟩
  · exact .inl (find_of_not_isPath good)

/-- A path leads to the same in trees that are the same under the names that it looks up. -/
theorem find_congr (home : other.workingDirectory = tree.workingDirectory)
    (same : ∀ key left, tree.LooksAlong path purpose key left →
      other.lookup key = tree.lookup key) :
    other.find path purpose = tree.find path purpose := by
  rcases meet_find [] home fun key left looks => .inl (same key left looks) with
    equal | ⟨first, second⟩
  · exact equal
  · exact second.trans first.symm

/-- Where trees are the same under the names that one of them looks up, the other looks up no
others. -/
theorem Looks.congr {key : Key} {left : List String}
    (looks : Looks other purpose links here steps key left)
    (same : ∀ key left, Looks tree purpose links here steps key left →
      other.lookup key = tree.lookup key) :
    Looks tree purpose links here steps key left := by
  induction looks with
  | name name enters => exact .name name enters
  | blank nothing _ inductionHypothesis =>
    exact .blank nothing
      (inductionHypothesis fun key left looks => same key left (.blank nothing looks))
  | up visible back _ inductionHypothesis =>
    exact .up visible back
      (inductionHypothesis fun key left looks => same key left (.up visible back looks))
  | down name enters found _ inductionHypothesis =>
    have here := (same _ _ (.name name enters)).symm.trans found
    exact .down name enters here
      (inductionHypothesis fun key left looks => same key left (.down name enters here looks))
  | through name enters found follows _ inductionHypothesis =>
    have here := (same _ _ (.name name enters)).symm.trans found
    exact .through name enters here follows (inductionHypothesis fun key left looks =>
      same key left (.through name enters here follows looks))

section LooksAlong

variable {key : Key} {left : List String}

theorem LooksAlong.extended (looks : tree.LooksAlong path purpose key left)
    (adds : Extends tree other) : other.LooksAlong path purpose key left :=
  ⟨looks.1, start_eq adds.home ▸ looks.2.extended adds⟩

theorem LooksAlong.steady (looks : other.LooksAlong path purpose key left)
    (steady : Steady tree other) : tree.LooksAlong path purpose key left :=
  ⟨looks.1, start_eq steady.home ▸ looks.2.steady steady⟩

theorem LooksAlong.congr (looks : other.LooksAlong path purpose key left)
    (home : other.workingDirectory = tree.workingDirectory)
    (same : ∀ key left, tree.LooksAlong path purpose key left →
      other.lookup key = tree.lookup key) : tree.LooksAlong path purpose key left := by
  obtain ⟨good, looks⟩ := looks
  rw [start_eq home] at looks
  exact ⟨good, looks.congr fun key left looks => same key left ⟨good, looks⟩⟩

end LooksAlong

/-! ### The names along a path -/

/-- The names that are looked up from the directory `here`, where a walk goes on through a link with
`enter`. -/
def lookedFrom (tree : FileTree) (purpose : Purpose)
    (enter : Key → List String → List (Key × List String)) :
    Key → List String → List (Key × List String)
  | _, [] => []
  | here, step :: rest =>
    if step.isEmpty || step == "." then lookedFrom tree purpose enter here rest
    else if step == ".." then lookedFrom tree purpose enter here.dropLast rest
    else if purpose = .newFile && rest == [""] then []
    else if step.utf8ByteSize > maxNameBytes then []
    else
      (here ++ [step], rest) ::
        match tree.lookup (here ++ [step]) with
        | some .directory => lookedFrom tree purpose enter (here ++ [step]) rest
        | some (.link target) =>
          if rest.isEmpty && !purpose.follows then []
          else enter (if Path.isAbsolute target then [] else here) (Path.steps target ++ rest)
        | _ => []

theorem lookedFrom_name {enter : Key → List String → List (Key × List String)} {step : String}
    {rest : List String} (name : IsName step)
    (enters : (purpose = .newFile && rest == [""]) = false) :
    lookedFrom tree purpose enter here (step :: rest) =
      (here ++ [step], rest) ::
        match tree.lookup (here ++ [step]) with
        | some .directory => lookedFrom tree purpose enter (here ++ [step]) rest
        | some (.link target) =>
          if rest.isEmpty && !purpose.follows then []
          else enter (if Path.isAbsolute target then [] else here) (Path.steps target ++ rest)
        | _ => [] := by
  rw [lookedFrom, if_neg (ne_true_of_eq_false name.visible),
    if_neg (ne_true_of_eq_false name.down), if_neg (ne_true_of_eq_false enters),
    if_neg name.short]

/-- The names that are looked up on the way through at most `links` links. -/
def looked (tree : FileTree) (purpose : Purpose) : (links : Nat) → Key → List String →
    List (Key × List String)
  | 0 => lookedFrom tree purpose fun _ _ => []
  | links + 1 => lookedFrom tree purpose (looked tree purpose links)

/-- The names that are looked up along a path. -/
def lookedAlong (tree : FileTree) (path : String) (purpose : Purpose) : List (Key × List String) :=
  looked tree purpose 40 (tree.start path) (purpose.steps path)

/-- All names that are looked up are listed. -/
theorem Looks.mem_looked {key : Key} {left : List String}
    (looks : Looks tree purpose links here steps key left) :
    (key, left) ∈ looked tree purpose links here steps := by
  have whole (links : Nat) :
      ∃ enter, looked tree purpose links = lookedFrom tree purpose enter := by
    cases links with
    | zero => exact ⟨_, rfl⟩
    | succ links => exact ⟨_, rfl⟩
  induction looks with
  | @name links here step rest name enters =>
    obtain ⟨enter, same⟩ := whole links
    rw [same, lookedFrom_name name enters]
    exact List.mem_cons_self
  | @blank links here step rest key left nothing _ inductionHypothesis =>
    obtain ⟨enter, same⟩ := whole links
    rw [same] at inductionHypothesis ⊢
    rw [lookedFrom, if_pos nothing]
    exact inductionHypothesis
  | @up links here step rest key left visible back _ inductionHypothesis =>
    obtain ⟨enter, same⟩ := whole links
    rw [same] at inductionHypothesis ⊢
    rw [lookedFrom, if_neg (ne_true_of_eq_false visible), if_pos back]
    exact inductionHypothesis
  | @down links here step rest key left name enters found _ inductionHypothesis =>
    obtain ⟨enter, same⟩ := whole links
    rw [same] at inductionHypothesis ⊢
    rw [lookedFrom_name name enters, found]
    exact List.mem_cons_of_mem _ inductionHypothesis
  | through name enters found follows _ inductionHypothesis =>
    rw [looked, lookedFrom_name name enters, found]
    dsimp only
    rw [if_neg (ne_true_of_eq_false follows)]
    exact List.mem_cons_of_mem _ inductionHypothesis

/-- What holds of the listed names holds of all that are looked up. -/
theorem forall_looksAlong {good : Key → List String → Prop}
    (all : ∀ entry ∈ tree.lookedAlong path purpose, good entry.1 entry.2) :
    ∀ key left, tree.LooksAlong path purpose key left → good key left :=
  fun key left looks => all (key, left) looks.2.mem_looked

/-- A walk whose first name is free looks up no other. -/
theorem Looks.eq_of_free {step : String} {rest : List String} {key : Key} {left : List String}
    (name : IsName step) (free : tree.lookup (here ++ [step]) = none)
    (looks : Looks tree purpose links here (step :: rest) key left) : key = here ++ [step] := by
  cases looks with
  | name => rfl
  | blank nothing => exact absurd nothing (ne_true_of_eq_false name.visible)
  | up _ back => exact absurd back (ne_true_of_eq_false name.down)
  | down _ _ found => cases free.symm.trans found
  | through _ _ found => cases free.symm.trans found

/-! ### Trees that agree -/

/-- Two trees that are the same under every name that is not inside. -/
structure AgreeOutside (inside : Key → Prop) (tree other : FileTree) : Prop where
  home : other.workingDirectory = tree.workingDirectory
  same : ∀ key, ¬ inside key → other.lookup key = tree.lookup key

namespace AgreeOutside

variable {inside : Key → Prop}

protected theorem refl (tree : FileTree) : AgreeOutside inside tree tree :=
  ⟨rfl, fun _ _ => rfl⟩

protected theorem symm (agree : AgreeOutside inside tree other) : AgreeOutside inside other tree :=
  ⟨agree.home.symm, fun key apart => (agree.same key apart).symm⟩

protected theorem trans {third : FileTree} (first : AgreeOutside inside tree other)
    (second : AgreeOutside inside other third) : AgreeOutside inside tree third :=
  ⟨second.home.trans first.home, fun key apart =>
    (second.same key apart).trans (first.same key apart)⟩

/-- The same is put under the same name. -/
theorem insert (agree : AgreeOutside inside tree other) (key : Key) (node : Node) :
    AgreeOutside inside (tree.insert key node) (other.insert key node) := by
  refine ⟨agree.home, fun place apart => ?_⟩
  cases place with
  | nil => rfl
  | cons step rest =>
    by_cases same : step :: rest = key
    · subst same
      have named : step :: rest ≠ [] := List.cons_ne_nil step rest
      rw [lookup_insert_self named, lookup_insert_self named]
    · rw [lookup_insert_of_ne same, lookup_insert_of_ne same, agree.same _ apart]

/-- Something is put under a name inside. -/
theorem insert_inside (tree : FileTree) {key : Key} (within : inside key) (node : Node) :
    AgreeOutside inside tree (tree.insert key node) := by
  refine ⟨rfl, fun place apart => lookup_insert_of_ne ?_⟩
  rintro rfl
  exact apart within

end AgreeOutside

/-- A path that looks up no name inside, whatever it is walked for. -/
def Avoids (tree : FileTree) (inside : Key → Prop) (path : String) : Prop :=
  ∀ purpose key left, tree.LooksAlong path purpose key left → ¬ inside key

/-- A path along which no name inside is listed. -/
def ListedOutside (tree : FileTree) (inside : Key → Prop) (path : String) : Prop :=
  ∀ purpose ∈ [Purpose.name, .target, .newFile, .newDirectory],
    ∀ entry ∈ tree.lookedAlong path purpose, ¬ inside entry.1

instance {tree : FileTree} {inside : Key → Prop} [DecidablePred inside] {path : String} :
    Decidable (tree.ListedOutside inside path) :=
  inferInstanceAs (Decidable (∀ purpose ∈ _, ∀ entry ∈ _, ¬ _))

theorem ListedOutside.avoids {inside : Key → Prop} (listed : tree.ListedOutside inside path) :
    tree.Avoids inside path :=
  fun purpose => forall_looksAlong (listed purpose (by cases purpose <;> decide))

namespace Avoids

variable {inside : Key → Prop} (avoids : tree.Avoids inside path)

include avoids

/-- Such a path leads to the same in trees that agree outside. -/
theorem find_eq (agree : AgreeOutside inside tree other) (purpose : Purpose) :
    other.find path purpose = tree.find path purpose :=
  find_congr agree.home fun key left looks => agree.same key (avoids purpose key left looks)

theorem isDirectory_eq (agree : AgreeOutside inside tree other) :
    other.isDirectory path = tree.isDirectory path := by
  rw [isDirectory, isDirectory, node, node, avoids.find_eq agree]

theorem agreeing (agree : AgreeOutside inside tree other) : other.Avoids inside path :=
  fun purpose key left looks => avoids purpose key left
    (looks.congr agree.home fun key left looks => agree.same key (avoids purpose key left looks))

/-- If it looks up no name inside once there are more files, it did not do so before. -/
theorem earlier {before : FileTree} (adds : Extends before tree) : before.Avoids inside path :=
  fun purpose key left looks => avoids purpose key left (looks.extended adds)

/-- Nor does it once nothing but files is made. -/
theorem steady (steady : Steady tree other) : other.Avoids inside path :=
  fun purpose key left looks => avoids purpose key left (looks.steady steady)

end Avoids

/-- A path that looks up no name inside when a directory is to be made of it, but at its end the
name `stop`. -/
def EndsAt (tree : FileTree) (inside : Key → Prop) (stop : Key) (path : String) : Prop :=
  ∀ key left, tree.LooksAlong path .newDirectory key left →
    ¬ inside key ∨ (key = stop ∧ left = [])

namespace EndsAt

variable {inside : Key → Prop} (ends : tree.EndsAt inside stop path)

include ends

/-- In trees that agree outside, such a path leads to the same, or to what each has under the
name. -/
theorem find_cases (agree : AgreeOutside inside tree other) :
    other.find path .newDirectory = tree.find path .newDirectory ∨
      (tree.find path .newDirectory = .ok ⟨stop, tree.lookup stop⟩ ∧
        other.find path .newDirectory = .ok ⟨stop, other.lookup stop⟩) :=
  meet_find stop agree.home fun key left looks =>
    (ends key left looks).imp (agree.same key) fun last => ⟨last.1, last.2, rfl⟩

theorem earlier {before : FileTree} (adds : Extends before tree) :
    before.EndsAt inside stop path :=
  fun key left looks => ends key left (looks.extended adds)

end EndsAt

end FileTree

end NicScope
