import Mathlib.Logic.Relation
import ToolGrammar.Snapshot.Difference

namespace ToolGrammar.Snapshot

open Relation

/-- What a text has at a line, counted from one. -/
def lineAt? (text : String) : Nat → Option String
  | 0 => none
  | before + 1 => (Text.pieces '\n' text)[before]?

theorem lineAt?_after {text : String} {shared left : List String}
    (lines : Text.pieces '\n' text = shared ++ left) :
    lineAt? text (shared.length + 1) = left.head? := by
  rw [lineAt?, lines, List.getElem?_append_right (Nat.le_refl _), Nat.sub_self,
    List.head?_eq_getElem?]

/-- Both texts have the line and it is not the same, or only one of them has it. -/
def DifferAt (expected actual : String) (line : Nat) : Prop :=
  lineAt? expected line ≠ lineAt? actual line

/-- How far a comparison has come: the number of the next line, and the lines left of each text. -/
structure Progress where
  line : Nat
  expected : List String
  actual : List String

namespace Progress

def start (expected actual : String) : Progress :=
  ⟨1, Text.pieces '\n' expected, Text.pieces '\n' actual⟩

/-- One round: the next line is the same in both texts and is left behind. -/
inductive Passes : Progress → Progress → Prop where
  | same (line : Nat) (text : String) (expected actual : List String) :
      Passes ⟨line, text :: expected, text :: actual⟩ ⟨line + 1, expected, actual⟩

/-- No further round. -/
def Ended (progress : Progress) : Prop :=
  ∀ next, ¬ progress.Passes next

/-- No line is left of either text. -/
def Exhausted (progress : Progress) : Prop :=
  progress.expected = [] ∧ progress.actual = []

/-- The difference told where the comparison ends. -/
def difference (progress : Progress) : Difference :=
  ⟨progress.line, progress.expected.head?, progress.actual.head?⟩

/-- The difference told from here on. -/
def told (progress : Progress) : Difference :=
  differenceFrom progress.line progress.expected progress.actual

variable {expected actual : String} {progress next last : Progress}

theorem passes_unique : Relator.RightUnique Passes := by
  intro progress first second passes other
  cases passes
  cases other
  rfl

/-- Every round takes a line away, so they come to an end. -/
theorem exists_ended (progress : Progress) :
    ∃ last, ReflTransGen Passes progress last ∧ last.Ended := by
  obtain ⟨line, expected, actual⟩ := progress
  -- The lines of one text bound the rounds; the other may run out of lines, or differ, before.
  induction expected generalizing line actual with
  | nil => exact ⟨_, .refl, fun next passes => by cases passes⟩
  | cons first others ih =>
      by_cases goesOn : ∃ rest, actual = first :: rest
      · obtain ⟨rest, rfl⟩ := goesOn
        obtain ⟨last, rounds, ended⟩ := ih (line + 1) rest
        exact ⟨last, .head (.same line first others rest) rounds, ended⟩
      · refine ⟨_, .refl, fun next passes => ?_⟩
        cases passes
        exact goesOn ⟨_, rfl⟩

/-- There is one way to go, so whatever is reached lies on the way to the end. -/
theorem Ended.of_rounds (ended : last.Ended) (rounds : ReflTransGen Passes progress last)
    (others : ReflTransGen Passes progress next) : ReflTransGen Passes next last := by
  rcases ReflTransGen.total_of_right_unique passes_unique rounds others with beyond | before
  · rcases beyond.cases_head with rfl | ⟨further, passes, _⟩
    · exact .refl
    · exact absurd passes (ended further)
  · exact before

theorem ended_cons_iff {line : Nat} {first second : String} {others rest : List String} :
    Ended ⟨line, first :: others, second :: rest⟩ ↔ first ≠ second := by
  constructor
  · intro ended same
    subst same
    exact ended _ (.same line first others rest)
  · intro different next passes
    cases passes
    exact different rfl

theorem Ended.head_ne (ended : progress.Ended) (left : ¬ progress.Exhausted) :
    progress.expected.head? ≠ progress.actual.head? := by
  obtain ⟨line, expected, actual⟩ := progress
  cases expected with
  | nil =>
      cases actual with
      | nil => exact absurd ⟨rfl, rfl⟩ left
      | cons second rest => simp
  | cons first others =>
      cases actual with
      | nil => simp
      | cons second rest => simpa using ended_cons_iff.mp ended

theorem told_of_passes (passes : progress.Passes next) : progress.told = next.told := by
  cases passes
  exact if_pos rfl

theorem told_of_rounds (rounds : ReflTransGen Passes progress last) :
    progress.told = last.told := by
  induction rounds with
  | refl => rfl
  | tail _ passes ih => exact ih.trans (told_of_passes passes)

theorem told_of_ended (ended : progress.Ended) : progress.told = progress.difference := by
  obtain ⟨line, expected, actual⟩ := progress
  cases expected with
  | nil => rfl
  | cons first others =>
      cases actual with
      | nil => rfl
      | cons second rest => exact if_neg (ended_cons_iff.mp ended)

/-- The shared lines and then those left are the lines of either text. -/
structure Shares (expected actual : String) (shared : List String) (progress : Progress) :
    Prop where
  line : progress.line = shared.length + 1
  expected : Text.pieces '\n' expected = shared ++ progress.expected
  actual : Text.pieces '\n' actual = shared ++ progress.actual

theorem Shares.passes {shared : List String} (shares : progress.Shares expected actual shared)
    (passes : progress.Passes next) : ∃ text, next.Shares expected actual (shared ++ [text]) := by
  cases passes with
  | same line text others rest =>
      refine ⟨text, ?_, ?_, ?_⟩
      · rw [List.length_append, List.length_singleton, ← shares.line]
      · rw [shares.expected, List.append_assoc, List.singleton_append]
      · rw [shares.actual, List.append_assoc, List.singleton_append]

theorem exists_shares (rounds : ReflTransGen Passes (start expected actual) progress) :
    ∃ shared, progress.Shares expected actual shared := by
  induction rounds with
  | refl => exact ⟨[], rfl, rfl, rfl⟩
  | tail _ passes ih =>
      obtain ⟨shared, shares⟩ := ih
      obtain ⟨text, longer⟩ := shares.passes passes
      exact ⟨shared ++ [text], longer⟩

namespace Shares

variable {shared : List String}

theorem not_exhausted (shares : progress.Shares expected actual shared)
    (different : expected ≠ actual) : ¬ progress.Exhausted := by
  intro exhausted
  -- With nothing left, the shared lines are all lines of both texts.
  have same : Text.pieces '\n' expected = Text.pieces '\n' actual := by
    rw [shares.expected, shares.actual, exhausted.1, exhausted.2]
  exact different (Text.pieces_inj same)

theorem lineAt?_expected (shares : progress.Shares expected actual shared) :
    lineAt? expected progress.line = progress.expected.head? := by
  rw [shares.line, lineAt?_after shares.expected]

theorem lineAt?_actual (shares : progress.Shares expected actual shared) :
    lineAt? actual progress.line = progress.actual.head? := by
  rw [shares.line, lineAt?_after shares.actual]

theorem not_differAt (shares : progress.Shares expected actual shared) {line : Nat}
    (earlier : line < progress.line) : ¬ DifferAt expected actual line := by
  cases line with
  | zero => exact fun differ => differ rfl
  | succ before =>
      have inside : before < shared.length := by
        rw [shares.line] at earlier
        exact Nat.lt_of_succ_lt_succ earlier
      rw [DifferAt, lineAt?, lineAt?, shares.expected, shares.actual,
        List.getElem?_append_left inside, List.getElem?_append_left inside]
      exact fun differ => differ rfl

end Shares

end Progress

open Progress

/-- Equal texts have no difference. Of different ones the comparison comes to an end, without ever
exhausting both, and tells of the first line at which they differ, with what each has there. -/
theorem firstDifference_exact (expected actual : String) :
    (firstDifference expected actual = none ↔ expected = actual) ∧
    (expected ≠ actual →
      ∃ last, ReflTransGen Passes (start expected actual) last ∧ last.Ended ∧
        (∀ progress, ReflTransGen Passes (start expected actual) progress →
          ReflTransGen Passes progress last ∧ ¬ progress.Exhausted ∧
            firstDifference expected actual = some progress.told) ∧
        firstDifference expected actual =
          some ⟨last.line, lineAt? expected last.line, lineAt? actual last.line⟩ ∧
        DifferAt expected actual last.line ∧
        ∀ line < last.line, ¬ DifferAt expected actual line) := by
  refine ⟨firstDifference_eq_none, fun different => ?_⟩
  have all : firstDifference expected actual = some (start expected actual).told := if_neg different
  obtain ⟨last, rounds, ended⟩ := exists_ended (start expected actual)
  obtain ⟨shared, shares⟩ := exists_shares rounds
  refine ⟨last, rounds, ended, fun progress others => ?_, ?_, ?_, fun line => shares.not_differAt⟩
  · obtain ⟨before, reached⟩ := exists_shares others
    exact ⟨ended.of_rounds rounds others, reached.not_exhausted different,
      told_of_rounds others ▸ all⟩
  · rw [all, told_of_rounds rounds, told_of_ended ended, shares.lineAt?_expected,
      shares.lineAt?_actual]
    rfl
  · rw [DifferAt, shares.lineAt?_expected, shares.lineAt?_actual]
    exact ended.head_ne (shares.not_exhausted different)

/-- One text goes on with a line feed only. -/
theorem firstDifference_exact_lineFeed :
    "one\ntwo" ≠ "one\ntwo\n" ∧
      ∃ last : Progress, last.Ended ∧ last.line = 3 ∧
        firstDifference "one\ntwo" "one\ntwo\n" = some ⟨3, none, some ""⟩ ∧
        ∀ line < 3, ¬ DifferAt "one\ntwo" "one\ntwo\n" line := by
  have different : "one\ntwo" ≠ "one\ntwo\n" := by decide
  have found : firstDifference "one\ntwo" "one\ntwo\n" = some ⟨3, none, some ""⟩ := by decide
  obtain ⟨_, differ⟩ := firstDifference_exact "one\ntwo" "one\ntwo\n"
  obtain ⟨last, _, ended, _, told, _, earlier⟩ := differ different
  have third : last.line = 3 := by
    rw [found, Option.some.injEq, Difference.mk.injEq] at told
    exact told.1.symm
  exact ⟨different, last, ended, third, found, third ▸ earlier⟩

end ToolGrammar.Snapshot
