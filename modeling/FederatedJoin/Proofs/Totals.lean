-- SUMMARY: When the total of a page covers all matching roots.
import FederatedJoin.Proofs.PageWalk
import FederatedJoin.Proofs.ShownRoots

/-!
# Totals

Once a key is discovered, the total of a page is taken from numbers that are all
large enough: the root's own count, the count of the keys when the driving rows
are exhausted, the count of the driving rows when they are not, the count of the
roots that have one of all the keys. Without any key the total is zero, also
where discovery was cut short before it came to a key.
-/

namespace FederatedJoin

namespace Execution

open Federation Discovery

variable {f : Federation Collection} {plan : Plan f.schema.relations}
  {driving : RelationId f.schema.relations} {narrowing : List (RelationId f.schema.relations)}

/-! ## What the total is taken from -/

/-- Roots with distinct keys are no more than the keys. -/
theorem length_matchingRoots_le_keys
    (hdistinct : (f.root.rows.filterMap (·.joinKey? (rootKeyField driving))).Nodup) :
    (f.matchingRoots plan driving narrowing).length ≤
      (keysOfFirst f plan driving narrowing (drivingRows f plan driving).length).length := by
  rw [← (perm_matchingRoots hdistinct).length_eq]
  exact List.length_filterMap_le ..

theorem length_matchingRoots_le_select {q : Request}
    (h : ∀ root ∈ f.matchingRoots plan driving narrowing, q.searchTree.holds root = true) :
    (f.matchingRoots plan driving narrowing).length ≤ (f.root.select q).length := by
  have hkept : ((f.matchingRoots plan driving narrowing).filter (q.searchTree.holds ·)) =
      f.matchingRoots plan driving narrowing := List.filter_eq_self.2 h
  have hsublist : ((f.matchingRoots plan driving narrowing).filter (q.searchTree.holds ·)).Sublist
      (f.root.rows.filter (q.searchTree.holds ·)) := List.filter_sublist.filter _
  rw [hkept] at hsublist
  simpa [Collection.select, SortKey.sort] using hsublist.length_le

/-- The root's own count covers distinct stored roots that satisfy its conditions. -/
theorem length_le_rootTotal (hfit : f.FitsWords) (hor : plan.routing.rootOrFilters = [])
    {bound : UInt64} (hbound : f.Answers (rootTotal plan) bound) {roots : List Record}
    (hroots : roots.Subperm
      (f.root.rows.filter fun row => plan.routing.rootFilters.all (·.holds row))) :
    roots.length ≤ bound.toNat := by
  let request := { plan.routing.rootRequest with limit := some 1 }
  have hanswers : f.Answers (rootTotal plan)
      (if plan.routing.hasRootFilters then (f.root.getMany request).total else Word.greatest) := by
    unfold rootTotal
    split
    · exact (answers_getMany _ _).bind (answers_pure _)
    · exact answers_pure _
  rw [Except.ok.inj ((hbound []).symm.trans (hanswers []))]
  split
  · have htotal : (f.root.getMany request).total.toNat = (f.root.select request).length :=
      Collection.toNat_total_getMany (hfit .root) request
    have hselect : (f.root.rows.filter fun row => plan.routing.rootFilters.all (·.holds row)) =
        f.root.rows.filter (request.searchTree.holds ·) := by
      apply List.filter_congr
      intro row _
      exact (Request.holds_searchTree_of_filters (q := request) hor rfl row).symm
    rw [htotal, Collection.select, SortKey.sort, List.length_mergeSort, ← hselect]
    exact hroots.length_le
  · have hcount : f.root.rows.length < 18446744073709551616 := hfit .root
    have hle := Nat.le_trans hroots.length_le (List.length_filter_le ..)
    exact Nat.le_trans hle (Nat.le_of_lt_succ hcount)

/-- The root's own count knows the root's conditions only. -/
theorem length_matchingRoots_le_rootTotal (hfit : f.FitsWords)
    (hor : plan.routing.rootOrFilters = []) {bound : UInt64}
    (hbound : f.Answers (rootTotal plan) bound) :
    (f.matchingRoots plan driving narrowing).length ≤ bound.toNat := by
  apply length_le_rootTotal hfit hor hbound
  apply List.Sublist.subperm
  apply List.monotone_filter_right
  intro row hrow
  exact (Bool.and_eq_true_iff.1 hrow).1

/-- Asked for all keys, the root's provider counts every matching root. -/
theorem length_matchingRoots_le_page (hfit : f.FitsWords) (hor : plan.routing.rootOrFilters = [])
    {keys : List JoinKey}
    (hkeys : keys = keysOfFirst f plan driving narrowing (drivingRows f plan driving).length) :
    (f.matchingRoots plan driving narrowing).length ≤ (f.root.getMany (windowed plan
      ((rootRequest plan).constrainKeys (rootKeyField driving) keys))).total.toNat := by
  refine Nat.le_trans ?_ (Nat.le_of_eq (Collection.toNat_total_getMany (hfit .root) _).symm)
  apply length_matchingRoots_le_select
  intro root hroot
  obtain ⟨hstored, hfilters, key, hkey, hrootkey⟩ := mem_matchingRoots_iff.1 hroot
  have hsorted : root ∈ f.sortedRoots plan driving keys :=
    mem_sortedRoots.2 ⟨hstored, hfilters, key, hkeys ▸ hkey,
      (Condition.holds_equal_key hrootkey key).2 rfl⟩
  rw [← select_rootRequest hor, Collection.mem_select] at hsorted
  exact hsorted.2

/-- What the relation tells covers all keys: it counts them, or the rows that name them. -/
theorem length_keys_le_total (hfit : f.FitsWords) {maxOffset : UInt64} {n : Nat}
    (hkeys : (after f plan driving narrowing maxOffset n).keys ≠ []) :
    (keysOfFirst f plan driving narrowing (drivingRows f plan driving).length).length ≤
      (after f plan driving narrowing maxOffset n).total.toNat := by
  have hle := length_keysOfFirst_le f plan driving narrowing (drivingRows f plan driving).length
  have hword : (drivingRows f plan driving).length < 18446744073709551616 :=
    length_drivingRows_lt hfit driving
  unfold total
  split
  · next hexhausted =>
    have hend := Nat.le_of_lt ((exhausted_after_iff n).1 hexhausted)
    have hall : (after f plan driving narrowing maxOffset n).keys =
        keysOfFirst f plan driving narrowing (drivingRows f plan driving).length :=
      keysOfFirst_of_length_le driving narrowing hend (Nat.le_refl _)
    rw [hall, UInt64.toNat_ofNat']
    omega
  · have hread : n ≠ 0 := by
      rintro rfl
      rw [after_zero] at hkeys
      exact hkeys rfl
    simp only [after, if_neg hread, Option.getD_some, UInt64.toNat_ofNat']
    omega

/-- With a key discovered, what the relation tells covers the matching roots. -/
theorem length_matchingRoots_le_total (hfit : f.FitsWords)
    (hdistinct : (f.root.rows.filterMap (·.joinKey? (rootKeyField driving))).Nodup)
    {maxOffset : UInt64} {n : Nat}
    (hkeys : (after f plan driving narrowing maxOffset n).keys ≠ []) :
    (f.matchingRoots plan driving narrowing).length ≤
      (after f plan driving narrowing maxOffset n).total.toNat :=
  Nat.le_trans (length_matchingRoots_le_keys hdistinct) (length_keys_le_total hfit hkeys)

/-! ## Pages -/

/-- The total covers the matching roots unless there are some and no key was discovered. -/
def Covers (f : Federation Collection) (plan : Plan f.schema.relations)
    (driving : RelationId f.schema.relations) (narrowing : List (RelationId f.schema.relations))
    (keys : List JoinKey) (page : Page) : Prop :=
  (f.matchingRoots plan driving narrowing).length ≤ page.total.toNat ↔
    keys ≠ [] ∨ f.matchingRoots plan driving narrowing = []

theorem covers_emptyPage : Covers f plan driving narrowing [] (emptyPage plan) := by
  unfold Covers
  rw [← List.length_eq_zero_iff]
  simp [emptyPage, Page.empty]

variable (narrowing) in
theorem relationOrdered_covers (hfit : f.FitsWords) (hlimit : plan.limit.toNat ≠ 0)
    (hor : plan.routing.rootOrFilters = [])
    (hdistinct : (f.root.rows.filterMap (·.joinKey? (rootKeyField driving))).Nodup) :
    let last := windowBudget f.limits (Execution.target plan)
      (Discovery.start plan.limit f.limits.maxOffset).cursor
    ∃ page, f.Answers (relationOrdered plan f.limits driving narrowing) page ∧
      Covers f plan driving narrowing (keysOfFirst f plan driving narrowing (rowsIn plan last))
        page := by
  intro last
  have htarget : 0 < Execution.target plan := by
    rw [Execution.target, Word.toNat_addSat]
    omega
  obtain ⟨m, g, bound, hle, hg, hstops, hbound, hpage⟩ :=
    answers_relationOrdered_page driving narrowing hfit hor f.limits
  refine ⟨_, hpage, ?_⟩
  by_cases hkeys : g.discovery.keys = []
  · rw [if_pos (List.isEmpty_iff.2 hkeys),
      keys_eq_nil_of_collected htarget hle hg hstops hkeys]
    exact covers_emptyPage
  · rw [if_neg (mt List.isEmpty_iff.1 hkeys)]
    rw [hg.discovery] at hkeys ⊢
    -- a key that is known stays known in the windows that were not needed
    have hmono := keysOfFirst_mono f plan driving narrowing (rowsIn_le_rowsIn plan hle)
    refine iff_of_true ?_ (.inl fun hnone => hkeys (List.prefix_nil.1 (hnone ▸ hmono)))
    have hroots : (f.matchingRoots plan driving narrowing).length ≤ bound.toNat :=
      length_matchingRoots_le_rootTotal hfit hor hbound
    have hcounted := length_matchingRoots_le_total hfit hdistinct hkeys
    show _ ≤ (min bound _ : UInt64).toNat
    rw [Word.toNat_min]
    exact Nat.le_min.2 ⟨hroots, hcounted⟩

variable (narrowing) in
theorem rootOrdered_covers (hfit : f.FitsWords) (hor : plan.routing.rootOrFilters = [])
    (hdistinct : (f.root.rows.filterMap (·.joinKey? (rootKeyField driving))).Nodup)
    (maxOffset : UInt64) (n : Nat) :
    ∃ page, f.Answers (rootOrdered plan driving (after f plan driving narrowing maxOffset n)) page ∧
      Covers f plan driving narrowing (after f plan driving narrowing maxOffset n).keys page := by
  obtain ⟨bound, hbound, hpage⟩ :=
    answers_rootOrdered_page driving (after f plan driving narrowing maxOffset n)
  refine ⟨_, hpage, ?_⟩
  by_cases hkeys : (after f plan driving narrowing maxOffset n).keys = []
  · rw [if_pos (List.isEmpty_iff.2 hkeys), hkeys]
    exact covers_emptyPage
  · rw [if_neg (mt List.isEmpty_iff.1 hkeys)]
    refine iff_of_true ?_ (.inl hkeys)
    cases hexhausted : (after f plan driving narrowing maxOffset n).exhausted with
    | true =>
      have hend := Nat.le_of_lt ((exhausted_after_iff n).1 hexhausted)
      exact length_matchingRoots_le_page hfit hor
        (keysOfFirst_of_length_le driving narrowing hend (Nat.le_refl _))
    | false =>
      have hroots : (f.matchingRoots plan driving narrowing).length ≤ bound.toNat :=
        length_matchingRoots_le_rootTotal hfit hor hbound
      have hcounted := length_matchingRoots_le_total hfit hdistinct hkeys
      show _ ≤ (max (min bound _) _ : UInt64).toNat
      rw [Word.toNat_max, Word.toNat_min]
      exact Nat.le_trans (Nat.le_min.2 ⟨hroots, hcounted⟩) (Nat.le_max_left ..)

/-- How many windows discovery may read for the page. -/
def windowsAllowed {relations : List Relation} (plan : Plan relations) (limits : Limits) : Nat :=
  let limit := plan.limit.toNat
  let needed := windowsFor (min (plan.offset.toNat + limit) Word.greatest.toNat) limit
  let below := windowsFor limits.maxOffset.toNat limit
  if plan.isRootOrdered then below else min (needed + limits.maxIterations.toNat) below

end Execution

namespace Federation

open Execution Discovery

variable {f : Federation Collection} {plan : Plan f.schema.relations}
  {driving : RelationId f.schema.relations} {narrowing : List (RelationId f.schema.relations)}

/-- The total of a page is at least the number of matching roots, unless the rows in all windows
that discovery may read name no key; then it is zero. -/
theorem total_covers_iff (hfit : f.FitsWords) {r : Request} (hplan : f.plan r = .ok plan)
    (hstrategy : plan.strategy = .relationFirst driving narrowing)
    (hdistinct : (f.root.rows.filterMap (·.joinKey? (rootKeyField driving))).Nodup) :
    ∃ page, f.answer r = .ok page ∧
      ((f.matchingRoots plan driving narrowing).length ≤ page.total.toNat ↔
        keysOfFirst f plan driving narrowing
            (plan.limit.toNat * windowsAllowed plan f.limits) ≠ [] ∨
          f.matchingRoots plan driving narrowing = []) := by
  have hor := Plan.rootOrFilters_eq_nil hplan
  have hlimit := Plan.toNat_limit_ne_zero hplan
  rw [Nat.mul_comm, ← rowsIn_eq hlimit]
  suffices ∃ page, f.Answers (pageOfPlan plan f.limits) page ∧
      Covers f plan driving narrowing (keysOfFirst f plan driving narrowing
        (rowsIn plan (windowsAllowed plan f.limits))) page by
    obtain ⟨page, hpage, hcovers⟩ := this
    exact ⟨page, answer_of_plan hplan hpage, hcovers⟩
  rw [pageOfPlan_of_relationFirst hstrategy]
  unfold windowsAllowed
  cases hordered : plan.isRootOrdered with
  | true =>
    obtain ⟨m, -, hle, hend, hread⟩ := answers_readAll plan driving narrowing hfit
      f.limits.maxOffset (Discovery.start plan.limit f.limits.maxOffset).cursor.windowsLeft 0
      (Nat.le_of_eq (Nat.zero_add _))
    rw [after_zero] at hread
    rw [Nat.zero_add] at hle hend
    obtain ⟨page, hpage, hcovers⟩ :=
      rootOrdered_covers narrowing hfit hor hdistinct f.limits.maxOffset m
    refine ⟨page, hread.bind hpage, ?_⟩
    rw [if_pos rfl, ← windowsLeft_start hlimit]
    rcases hend with rfl | hexhausted
    · exact hcovers
    · rw [keys_after_eq_of_exhausted hle hexhausted] at hcovers
      exact hcovers
  | false =>
    rw [if_neg Bool.false_ne_true, if_neg Bool.false_ne_true, ← windowBudget_eq hlimit]
    exact relationOrdered_covers narrowing hfit hlimit hor hdistinct

end Federation

namespace Shop

open Federation Execution

/-- The walk of the crowded shop: its first page counts both customers. -/
theorem total_covers_crowded : ∃ page, (crowded 3).answer ordering = .ok page ∧
    2 ≤ page.total.toNat := by
  obtain ⟨page, hanswer, hcovers⟩ := total_covers_iff (fitsWords_crowded 3) (plan_crowded 3) rfl
    (nodup_keys_crowded 3)
  have hnamed : keysOfFirst (crowded 3) (orderingPlan 3) theRelation []
      ((orderingPlan 3).limit.toNat * windowsAllowed (orderingPlan 3) (crowded 3).limits) =
        [.int 1, .int 2] := by cbv
  have hlength : ((crowded 3).matchingRoots (orderingPlan 3) theRelation []).length = 2 := by cbv
  refine ⟨page, hanswer, ?_⟩
  rw [← hlength]
  apply hcovers.2 (.inl _)
  rw [hnamed]
  exact List.cons_ne_nil _ _

/-- An order without a customer comes before the order of the only one. -/
def unclaimed : Federation Collection :=
  federation orders ⟨1, 1, 10, true⟩ [customer 1 0] [record [("price", 7)], order 1 8]

def firstOrdering : Request := { ordering with limit := some 1 }

def firstOrderingPlan : Plan unclaimed.schema.relations where
  routing := .ofRequest _ firstOrdering
  sorts := ⟨[], []⟩
  strategy := .relationFirst theRelation []
  hydrated := [theRelation]
  limit := 1
  offset := 0

/-- No window starts at the second order, and the one customer is not counted. -/
theorem not_forall_total_covers : ¬ ∀ (f : Federation Collection) (r : Request)
    (plan : Plan f.schema.relations) (driving : RelationId f.schema.relations)
    (narrowing : List (RelationId f.schema.relations)), f.FitsWords →
    f.schema.validate = .ok () → f.plan r = .ok plan →
    plan.strategy = .relationFirst driving narrowing →
    (f.root.rows.filterMap (·.joinKey? (rootKeyField driving))).Nodup →
    1 ≤ f.limits.maxIterations →
    ∃ page, f.answer r = .ok page ∧
      (f.matchingRoots plan driving narrowing).length ≤ page.total.toNat := by
  intro h
  have hkeys : unclaimed.root.rows.filterMap (·.joinKey? "id") = [.int 1] := by cbv
  have hdistinct : (unclaimed.root.rows.filterMap (·.joinKey? "id")).Nodup := by
    rw [hkeys]
    exact List.nodup_singleton _
  obtain ⟨page, hanswer, hcovers⟩ := h unclaimed firstOrdering firstOrderingPlan theRelation []
    (fitsWords (by decide) (by decide)) rfl rfl rfl hdistinct (by decide)
  have htotal : (unclaimed.answer firstOrdering).map (·.total.toNat) = .ok 0 := by cbv
  rw [hanswer] at htotal
  have hlength : (unclaimed.matchingRoots firstOrderingPlan theRelation []).length = 1 := by cbv
  have hzero : page.total.toNat = 0 := Except.ok.inj htotal
  omega

end Shop

end FederatedJoin
