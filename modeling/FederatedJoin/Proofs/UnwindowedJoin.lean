-- SUMMARY: Without root sorts, a page is a window of one join of the first driving rows with the roots.
import FederatedJoin.Proofs.Gathering

/-!
# The unwindowed join

Reading windows, narrowing their keys together and fetching roots in parts comes
to the same as one join: take the driving rows that the windows within the
budget can reach, keep the distinct keys for which each other relation alone has
a row, and replace every key by its first stored root.
-/

namespace FederatedJoin

namespace Federation

open Execution Discovery

variable {f : Federation Collection} {plan : Plan f.schema.relations}
  {driving : RelationId f.schema.relations} {narrowing : List (RelationId f.schema.relations)}

theorem map_snd_joinedRoots_of_unsorted (hsorts : plan.sorts.rootSorts = []) (n : Nat) :
    (f.joinedRoots plan driving narrowing n).map (·.2) =
      (keysOfFirst f plan driving narrowing n).filterMap (f.storedRoot? plan driving) := by
  unfold joinedRoots rootsOf
  rw [List.map_filterMap]
  apply List.filterMap_congr
  intro key _
  simp only [firstRoot?_of_unsorted hsorts, Option.map_map]
  exact Option.map_id'

/-- A page without root sorts is cut out of the stored roots of the keys that all windows
within the budget name. -/
theorem answer_eq_hydratedPage (hfit : f.FitsWords) {r : Request} (hplan : f.plan r = .ok plan)
    (hstrategy : plan.strategy = .relationFirst driving narrowing)
    (hroot : plan.sorts.rootSorts = []) :
    let windows := windowBudget f.limits (Execution.target plan)
      (Discovery.start plan.limit f.limits.maxOffset).cursor
    let keys := keysOfFirst f plan driving narrowing (rowsIn plan windows)
    ∃ total, f.answer r = .ok (hydratedPage f plan
      (((keys.filterMap (f.storedRoot? plan driving)).drop plan.offset.toNat).take
        plan.limit.toNat) total) := by
  intro windows keys
  obtain ⟨m, g, total, hends, hpage⟩ := answers_relationOrdered_hydrated narrowing hfit
    (Plan.rootOrFilters_eq_nil hplan) (steadyRoots_of_unsorted hroot driving) f.limits
  have hwindow : ((rootsInOrder f plan driving narrowing f.limits.maxOffset m).drop
      plan.offset.toNat).take plan.limit.toNat =
        ((keys.filterMap (f.storedRoot? plan driving)).drop plan.offset.toNat).take
          plan.limit.toNat := by
    rw [rootsInOrder, hroot, List.isEmpty_nil, if_pos rfl, ← List.map_drop, ← List.map_take,
      hends.window_eq hfit, List.map_take, List.map_drop, map_snd_joinedRoots_of_unsorted hroot]
  rw [hwindow] at hpage
  refine ⟨total, answer_of_plan hplan ?_⟩
  unfold pageOfPlan
  rw [hstrategy]
  simp only [relationFirst, hroot, List.isEmpty_nil, Bool.not_true, Bool.and_false]
  exact hpage

theorem answer_eq_window (hfit : f.FitsWords) {r : Request} (hplan : f.plan r = .ok plan)
    (hstrategy : plan.strategy = .relationFirst driving narrowing)
    (hroot : plan.sorts.rootSorts = []) :
    let windows := windowBudget f.limits (Execution.target plan)
      (Discovery.start plan.limit f.limits.maxOffset).cursor
    let keys := keysOfFirst f plan driving narrowing (rowsIn plan windows)
    ∃ page, f.answer r = .ok page ∧
      page.data.map (·.outside plan.attached) =
        (((keys.filterMap (f.storedRoot? plan driving)).drop plan.offset.toNat).take
          plan.limit.toNat).map (·.outside plan.attached) := by
  intro windows keys
  obtain ⟨total, hanswer⟩ := answer_eq_hydratedPage hfit hplan hstrategy hroot
  exact ⟨_, hanswer, Hydration.map_outside_hydrated plan _⟩

/-- A page without root sorts shows the roots of the keys that the first driving rows name:
as many rows as stand in the windows that the page needs and those that may be lost. -/
theorem answer_of_unsortedRoots (hfit : f.FitsWords) {r : Request} (hplan : f.plan r = .ok plan)
    (hstrategy : plan.strategy = .relationFirst driving narrowing)
    (hroot : plan.sorts.rootSorts = []) :
    let greatest := Word.greatest.toNat
    let limit := plan.limit.toNat
    let offset := plan.offset.toNat
    let needed := windowsFor (min (offset + limit) greatest) limit
    let windows := min (min (needed + f.limits.maxIterations.toNat) greatest)
      (windowsFor f.limits.maxOffset.toNat limit)
    let keys := keysOfFirst f plan driving narrowing (limit * windows)
    ∃ page, f.answer r = .ok page ∧
      page.data.map (·.outside plan.attached) =
        (((keys.filterMap (f.storedRoot? plan driving)).drop offset).take limit).map
          (·.outside plan.attached) := by
  intro greatest limit offset needed windows keys
  have hlimit : limit ≠ 0 := Plan.toNat_limit_ne_zero hplan
  have hrows : rowsIn plan windows = limit * windows :=
    (rowsIn_eq hlimit windows).trans (Nat.mul_comm ..)
  obtain ⟨page, hpage, hdata⟩ := answer_eq_window hfit hplan hstrategy hroot
  rw [windowBudget_start hlimit, hrows] at hdata
  exact ⟨page, hpage, hdata⟩

end Federation

namespace Shop

open Federation

/-- The first customer is named after two orders of the second. -/
def repeated : Federation Collection :=
  federation orders ⟨1, 100, 10, true⟩ [customer 1 0, customer 2 0]
    [order 2 7, order 2 8, order 1 7]

def secondOrdering : Request :=
  { Request.empty with filters := [priced orders], offset := some 1, limit := some 1 }

def secondOrderingPlan : Plan repeated.schema.relations where
  routing := .ofRequest _ secondOrdering
  sorts := ⟨[], []⟩
  strategy := .relationFirst theRelation []
  hydrated := [theRelation]
  limit := 1
  offset := 1

theorem answer_secondOrdering : ∃ page, repeated.answer secondOrdering = .ok page ∧
    page.data.map (·.outside ["orders"]) = [customer 1 0].map (·.outside ["orders"]) := by
  have hplan : repeated.plan secondOrdering = .ok secondOrderingPlan := rfl
  have hfit : repeated.FitsWords := fitsWords (by decide) (by decide)
  obtain ⟨page, hpage, hdata⟩ := answer_of_unsortedRoots hfit hplan rfl rfl
  have hroots : (keysOfFirst repeated secondOrderingPlan (0 : Fin 1) [] 3).filterMap
      (repeated.storedRoot? secondOrderingPlan (0 : Fin 1)) = [customer 2 0, customer 1 0] := by
    cbv
  refine ⟨page, hpage, hdata.trans ?_⟩
  exact congrArg (fun roots => ((roots.drop 1).take 1).map (·.outside ["orders"])) hroots

end Shop

end FederatedJoin
