/-
Where the lines of a text end. Lines end with a carriage return and a line feed, and a text is
split there into records, the last of which is what follows the last end of a line. The ends are
counted where texts are put together: none is made or lost where what follows does not begin
with a line feed, or what is in front does not end with a carriage return.
-/

import NicScope.OperationLog
import NicScope.Proofs.Text.Unmarked

namespace NicScope

open Numeral OperationLog

/-! ### Counting and splitting -/

/-- A carriage return in front of a line feed ends a line. -/
def IsEnd (character : Char) (rest : List Char) : Prop :=
  character = '\r' ∧ rest.head? = some '\n'

instance (character : Char) (rest : List Char) : Decidable (IsEnd character rest) :=
  inferInstanceAs (Decidable (_ ∧ _))

/-- The number of ends of lines in a text. -/
def lineEnds : List Char → Nat
  | [] => 0
  | character :: rest =>
    (if IsEnd character rest then 1 else 0) + lineEnds rest

/-- The records between the ends of lines, one more than there are ends. -/
def records : List Char → List (List Char)
  | [] => [[]]
  | '\r' :: '\n' :: rest => [] :: records rest
  | character :: rest => (records rest).modifyHead (character :: ·)

variable {text more : List Char} {character : Char}

theorem not_isEnd_of_other
    (other : ∀ rest, character = '\r' → text = '\n' :: rest → False) :
    ¬ IsEnd character text := by
  rintro ⟨same, head⟩
  obtain ⟨rest, rfl⟩ := List.head?_eq_some_iff.mp head
  exact other rest same rfl

theorem records_of_other (other : ¬ IsEnd character text) :
    records (character :: text) = (records text).modifyHead (character :: ·) := by
  rw [records]
  rintro rest rfl rfl
  exact other ⟨rfl, rfl⟩

theorem lineEnds_of_other (other : ¬ IsEnd character text) :
    lineEnds (character :: text) = lineEnds text := by
  rw [lineEnds, if_neg other, Nat.zero_add]

theorem lineEnds_end (rest : List Char) : lineEnds ('\r' :: '\n' :: rest) = lineEnds rest + 1 := by
  rw [lineEnds, if_pos ⟨rfl, rfl⟩, lineEnds_of_other (by simp [IsEnd]), Nat.add_comm]

theorem length_records (text : List Char) : (records text).length = lineEnds text + 1 := by
  induction text using records.induct with
  | case1 => rfl
  | case2 rest inductionHypothesis =>
    rw [records, List.length_cons, inductionHypothesis, lineEnds_end]
  | case3 character rest other inductionHypothesis =>
    have other := not_isEnd_of_other other
    rw [records_of_other other, List.length_modifyHead, inductionHypothesis,
      lineEnds_of_other other]

/-- A text in which no line ends is one record. -/
theorem records_of_lineEnds (none : lineEnds text = 0) : records text = [text] := by
  induction text using records.induct with
  | case1 => rfl
  | case2 rest => cases (lineEnds_end rest).symm.trans none
  | case3 character rest other inductionHypothesis =>
    have other := not_isEnd_of_other other
    rw [lineEnds_of_other other] at none
    rw [records_of_other other, inductionHypothesis none]
    rfl

/-- At the end of a line a text is split in two. -/
theorem records_append (text more : List Char) :
    records (text ++ '\r' :: '\n' :: more) = records text ++ records more := by
  induction text using records.induct with
  | case1 => rfl
  | case2 rest inductionHypothesis =>
    exact congrArg (List.cons []) inductionHypothesis
  | case3 character rest other inductionHypothesis =>
    have other := not_isEnd_of_other other
    have still : ¬ IsEnd character (rest ++ '\r' :: '\n' :: more) := by
      rintro ⟨same, head⟩
      cases rest with
      | nil => cases head
      | cons next rest => exact other ⟨same, head⟩
    have some : (records rest).length ≠ 0 := by
      rw [length_records]
      exact Nat.succ_ne_zero _
    rw [List.cons_append, records_of_other still, inductionHypothesis, records_of_other other]
    cases split : records rest with
    | nil => exact absurd (congrArg List.length split) some
    | cons first others => rfl

/-! ### Texts that are put together -/

theorem lineEnds_append_end (text more : List Char) :
    lineEnds (text ++ '\r' :: '\n' :: more) = lineEnds text + 1 + lineEnds more := by
  have split := congrArg List.length (records_append text more)
  rw [List.length_append, length_records, length_records, length_records] at split
  omega

theorem lineEnds_append (begins : more.head? ≠ some '\n') :
    lineEnds (text ++ more) = lineEnds text + lineEnds more := by
  induction text with
  | nil => exact (Nat.zero_add _).symm
  | cons character rest inductionHypothesis =>
    have same : IsEnd character (rest ++ more) ↔ IsEnd character rest := by
      cases rest with
      | nil => exact iff_of_false (fun ends => begins ends.2) (fun ends => nomatch ends.2)
      | cons next rest => exact Iff.rfl
    rw [List.cons_append, lineEnds, lineEnds, inductionHypothesis, Nat.add_assoc]
    simp only [same]

/-- Texts with a character between them that belongs to no end of a line. -/
theorem lineEnds_between (noReturn : character ≠ '\r') (noFeed : character ≠ '\n') :
    lineEnds (text ++ character :: more) = lineEnds text + lineEnds more := by
  rw [lineEnds_append (by simpa using noFeed), lineEnds_of_other fun ends => noReturn ends.1]

theorem lineEnds_of_not_mem (clear : '\r' ∉ text) : lineEnds text = 0 := by
  induction text with
  | nil => rfl
  | cons character rest inductionHypothesis =>
    rw [List.mem_cons, not_or] at clear
    rw [lineEnds_of_other fun ends => clear.1 ends.1.symm, inductionHypothesis clear.2]

/-- No line ends in a text in which no end of a line is found. -/
theorem lineEnds_eq_zero_iff : lineEnds text = 0 ↔ ¬ recordEnd.toList <:+: text := by
  have spelled : recordEnd.toList = ['\r', '\n'] := by decide
  rw [spelled]
  constructor
  · rintro none ⟨before, behind, rfl⟩
    have split := congrArg List.length (records_append before behind)
    rw [List.append_assoc] at none
    rw [List.length_append, length_records, length_records, length_records] at split
    have same : before ++ '\r' :: '\n' :: behind = before ++ (['\r', '\n'] ++ behind) := rfl
    rw [same, none] at split
    omega
  · intro absent
    induction text using records.induct with
    | case1 => rfl
    | case2 rest => exact absurd ⟨[], rest, rfl⟩ absent
    | case3 character rest other inductionHypothesis =>
      rw [lineEnds_of_other (not_isEnd_of_other other)]
      exact inductionHypothesis fun found => absent (List.infix_cons found)

end NicScope
