-- SUMMARY: Sorted by the root alone, a page is a window of the filtered, joined and sorted roots.
import FederatedJoin.Proofs.Roots
import FederatedJoin.Proofs.Windows

/-!
# Root order

When only root fields are sorted by, discovery reads all windows below the
greatest offset, and the root's provider sorts and pages the roots of the keys
it found. The answer is therefore a window of one list: the roots that satisfy
the root's conditions and are named by a discovered key, sorted. When discovery
saw the end of the driving rows, the total is the length of that list.
-/

namespace FederatedJoin

namespace Discovery

open Federation Execution

variable {f : Federation Collection} {plan : Plan f.schema.relations}

/-- Every window below the greatest offset is read, or the end of the rows is seen before. If the
rows do not fill the windows, their end is seen. -/
theorem answers_readAll_start (driving : RelationId f.schema.relations)
    (narrowing : List (RelationId f.schema.relations)) (hfit : f.FitsWords)
    (hlimit : plan.limit.toNat ≠ 0) (maxOffset : UInt64) :
    ∃ d, f.Answers (readAll plan driving narrowing
        (start plan.limit maxOffset).cursor.windowsLeft (start plan.limit maxOffset)) d ∧
      d.keys = keysOfFirst f plan driving narrowing
        (plan.limit.toNat * windowsFor maxOffset.toNat plan.limit.toNat) ∧
      ((drivingRows f plan driving).length / plan.limit.toNat * plan.limit.toNat <
        maxOffset.toNat → d.exhausted = true) := by
  have hleft := windowsLeft_start hlimit maxOffset
  obtain ⟨n, -, hn, hend, hread⟩ := answers_readAll plan driving narrowing hfit maxOffset
    (start plan.limit maxOffset).cursor.windowsLeft 0 (Nat.le_of_eq (Nat.zero_add _))
  simp only [Nat.zero_add, hleft] at hn hend
  rw [after_zero] at hread
  have hrows : rowsIn plan (windowsFor maxOffset.toNat plan.limit.toNat) =
      plan.limit.toNat * windowsFor maxOffset.toNat plan.limit.toNat :=
    (rowsIn_eq hlimit _).trans (Nat.mul_comm ..)
  refine ⟨after f plan driving narrowing maxOffset n, hread, ?_, ?_⟩
  · rw [← hrows]
    rcases hend with rfl | hexhausted
    · rfl
    · rw [keys_after_eq_of_exhausted hn hexhausted]
      rfl
  · intro hshort
    rcases hend with rfl | hexhausted
    · rw [exhausted_after_iff, rowsIn_eq hlimit, ← Nat.not_le]
      intro hfull
      -- as many whole windows start below the greatest offset as there are windows
      have hle : windowsFor maxOffset.toNat plan.limit.toNat ≤
          (drivingRows f plan driving).length / plan.limit.toNat :=
        (Nat.le_div_iff_mul_le (Nat.pos_of_ne_zero hlimit)).2 hfull
      have hbelow : windowsFor maxOffset.toNat plan.limit.toNat * plan.limit.toNat <
          maxOffset.toNat :=
        Nat.lt_of_le_of_lt (Nat.mul_le_mul_right _ hle) hshort
      exact Nat.lt_irrefl _ ((lt_windowsFor_iff hlimit _ _).2 hbelow)
    · exact hexhausted

end Discovery

namespace Execution

open Federation Discovery

variable {f : Federation Collection} {plan : Plan f.schema.relations}

/-- The page is a window of the sorted roots, hydrated. -/
theorem answers_rootOrdered_hydrated (hfit : f.FitsWords) (hor : plan.routing.rootOrFilters = [])
    (driving : RelationId f.schema.relations) (d : Discovery) :
    ∃ total, f.Answers (rootOrdered plan driving d) (hydratedPage f plan
        (((f.sortedRoots plan driving d.keys).drop plan.offset.toNat).take plan.limit.toNat)
          total) ∧
      (d.exhausted = true → total.toNat = (f.sortedRoots plan driving d.keys).length) := by
  obtain ⟨bound, -, hpage⟩ := answers_rootOrdered_page driving d
  by_cases hkeys : d.keys.isEmpty = true
  · rw [if_pos hkeys, emptyPage_eq_hydratedPage] at hpage
    rw [List.isEmpty_iff.1 hkeys, sortedRoots_nil, List.drop_nil, List.take_nil]
    exact ⟨0, hpage, fun _ => rfl⟩
  · let request := windowed plan ((rootRequest plan).constrainKeys (rootKeyField driving) d.keys)
    have hselect : f.root.select request = f.sortedRoots plan driving d.keys :=
      select_rootRequest hor driving d.keys
    have hdata : (f.root.getMany request).data =
        ((f.sortedRoots plan driving d.keys).drop plan.offset.toNat).take plan.limit.toNat := by
      rw [Collection.data_getMany_of_limit (q := request) rfl, hselect]
      rfl
    have htotal : (f.root.getMany request).total.toNat =
        (f.sortedRoots plan driving d.keys).length :=
      (Collection.toNat_total_getMany (hfit .root) _).trans (congrArg List.length hselect)
    rw [if_neg hkeys] at hpage
    rw [← hdata]
    refine ⟨_, hpage, fun hexhausted => ?_⟩
    rw [if_pos hexhausted]
    exact htotal

/-- The page of the sorted roots, apart from the relations that are attached to it. -/
theorem answers_rootOrdered (hfit : f.FitsWords) (hor : plan.routing.rootOrFilters = [])
    (driving : RelationId f.schema.relations) (d : Discovery) :
    ∃ page, f.Answers (rootOrdered plan driving d) page ∧
      page.data.map (·.outside plan.attached) =
        (((f.sortedRoots plan driving d.keys).drop plan.offset.toNat).take
          plan.limit.toNat).map (·.outside plan.attached) ∧
      (d.exhausted = true → page.total.toNat = (f.sortedRoots plan driving d.keys).length) := by
  obtain ⟨total, hpage, htotal⟩ := answers_rootOrdered_hydrated hfit hor driving d
  exact ⟨_, hpage, Hydration.map_outside_hydrated plan _, htotal⟩

end Execution

namespace Federation

open Execution Discovery

variable {f : Federation Collection} {plan : Plan f.schema.relations}

/-- Ordered by the root, a federation answers with a window of the sorted roots, joined
with every driving row that starts before the greatest offset. -/
theorem answer_of_rootSorts (hfit : f.FitsWords) {r : Request} (hplan : f.plan r = .ok plan)
    {driving : RelationId f.schema.relations} {narrowing : List (RelationId f.schema.relations)}
    (hstrategy : plan.strategy = .relationFirst driving narrowing)
    (hrelation : plan.sorts.relationSorts = []) (hroot : plan.sorts.rootSorts ≠ []) :
    let limit := plan.limit.toNat
    let maxOffset := f.limits.maxOffset.toNat
    let rows := limit * windowsFor maxOffset limit
    let roots := f.sortedRoots plan driving (keysOfFirst f plan driving narrowing rows)
    ∃ page, f.answer r = .ok page ∧
      page.data.map (·.outside plan.attached) =
        ((roots.drop plan.offset.toNat).take limit).map (·.outside plan.attached) ∧
      ((drivingRows f plan driving).length / limit * limit < maxOffset →
        page.total.toNat = roots.length) := by
  intro limit maxOffset rows roots
  have hlimit : limit ≠ 0 := Plan.toNat_limit_ne_zero hplan
  obtain ⟨d, hread, hkeys, hexhausted⟩ :=
    answers_readAll_start driving narrowing hfit hlimit f.limits.maxOffset
  obtain ⟨page, hpage, hdata, htotal⟩ := answers_rootOrdered hfit
    (Plan.rootOrFilters_eq_nil hplan) driving d
  rw [hkeys] at hdata htotal
  refine ⟨page, answer_of_plan hplan ?_, hdata, fun hshort => htotal (hexhausted hshort)⟩
  unfold pageOfPlan
  rw [hstrategy]
  simp only [relationFirst, hrelation, List.isEmpty_nil, List.isEmpty_eq_false_iff.2 hroot]
  exact hread.bind hpage

end Federation

namespace Shop

open Federation

/-- Of three customers two have an order, and those are stored against their rank. -/
def ranked : Federation Collection :=
  federation orders ⟨10, 100, 10, true⟩ [customer 1 20, customer 2 10, customer 3 5]
    [order 1 7, order 2 7]

def byRank : Request :=
  { Request.empty with filters := [priced orders], sorts := [⟨"rank", .ascending, none⟩] }

def byRankPlan : Plan ranked.schema.relations where
  routing := .ofRequest _ byRank
  sorts := ⟨[], byRank.sorts⟩
  strategy := .relationFirst theRelation []
  hydrated := [theRelation]
  limit := 10
  offset := 0

theorem answer_byRank : ∃ page, ranked.answer byRank = .ok page ∧
    page.data.map (·.outside ["orders"]) =
      [customer 2 10, customer 1 20].map (·.outside ["orders"]) ∧
    page.total.toNat = 2 := by
  have hplan : ranked.plan byRank = .ok byRankPlan := rfl
  have hfit : ranked.FitsWords := fitsWords (by decide) (by decide)
  obtain ⟨page, hpage, hdata, htotal⟩ :=
    answer_of_rootSorts hfit hplan rfl rfl (List.cons_ne_nil _ _)
  have hroots : ranked.sortedRoots byRankPlan (0 : Fin 1)
      (keysOfFirst ranked byRankPlan (0 : Fin 1) [] 100) = [customer 2 10, customer 1 20] := by
    cbv
  have hdriving : (drivingRows ranked byRankPlan (0 : Fin 1)).length = 2 := by cbv
  have hshort : (drivingRows ranked byRankPlan (0 : Fin 1)).length / 10 * 10 < 100 := by
    rw [hdriving]
    decide
  refine ⟨page, hpage, ?_, (htotal hshort).trans (congrArg List.length hroots)⟩
  exact hdata.trans (congrArg
    (fun roots => ((roots.drop 0).take 10).map (·.outside ["orders"])) hroots)

end Shop

end FederatedJoin
