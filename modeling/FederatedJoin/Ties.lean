-- SUMMARY: Reordering the roots whose driving rows tie.
import FederatedJoin.FirstRows
import FederatedJoin.SortKey

/-!
# Ties

Roots arrive in the order of the driving rows they were found by. Where
neighbours tie there, the root's own sort keys decide, and nothing else moves.
-/

namespace FederatedJoin.Ties

variable {α : Type}

/-- The rest of the run that `head` starts, and the runs after it. -/
def splitRun (tied : α → α → Bool) (head : α) : List α → List α × List (List α)
  | [] => ([], [])
  | x :: rest =>
    if tied head x then
      let (run, more) := splitRun tied head rest
      (x :: run, more)
    else
      let (run, more) := splitRun tied x rest
      ([], (x :: run) :: more)

/-- Splits a list where an item does not tie with the head of the run before it. -/
def runs (tied : α → α → Bool) : List α → List (List α)
  | [] => []
  | x :: rest =>
    let (run, more) := splitRun tied x rest
    (x :: run) :: more

theorem flatten_splitRun (tied : α → α → Bool) (head : α) (xs : List α) :
    (splitRun tied head xs).1 ++ (splitRun tied head xs).2.flatten = xs := by
  induction xs generalizing head with
  | nil => rfl
  | cons x rest ih =>
    simp only [splitRun]
    split
    · simpa using ih head
    · simpa using ih x

/-- Runs lose nothing and keep the order. -/
theorem flatten_runs (tied : α → α → Bool) (xs : List α) : (runs tied xs).flatten = xs := by
  cases xs with
  | nil => rfl
  | cons x rest => simpa [runs] using flatten_splitRun tied x rest

/-- Whether the driving rows of two keys are known and compare equal. -/
def tied (ranks : FirstRows) (relationSorts : List SortKey) (a b : JoinKey) : Bool :=
  match ranks.get? a, ranks.get? b with
  | some a, some b => (SortKey.compareAll relationSorts a b).isEq
  | _, _ => false

/-- Sorts every run of tied roots by the root sorts. -/
def breakTies (ranks : FirstRows) (relationSorts rootSorts : List SortKey)
    (roots : List (JoinKey × Record)) : List (JoinKey × Record) :=
  (runs (fun a b => tied ranks relationSorts a.1 b.1) roots).flatMap
    (·.mergeSort fun a b => (SortKey.compareAll rootSorts a.2 b.2).isLE)

end FederatedJoin.Ties
