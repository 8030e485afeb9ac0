-- SUMMARY: Walking the pages of a request without root sorts, and when the walk shows every matching root.
import FederatedJoin.Proofs.UnwindowedJoin
import Mathlib.Data.List.Nodup

/-!
# Page walks

Every page is answered by a run of its own, with a budget that grows by one
window from page to page. Repeated and refused keys use up the slack in the
budget, and a page whose budget ends before its roots are named comes back
short. A walk over all pages shows every matching root exactly when no budget
ends early.
-/

namespace FederatedJoin

/-! ## Walks -/

/-- The request for a page by its number, counted from one. -/
def Request.atPage (r : Request) (limit : UInt64) (number : Nat) : Request :=
  { r with page := some (UInt64.ofNat number), offset := none, limit := some limit }

namespace Federation

open Execution Discovery

/-- The data of the first pages of a request, one after the other. -/
def walk (f : Federation Collection) (r : Request) (limit : UInt64) :
    Nat → Except Failure (List Record)
  | 0 => .ok []
  | n + 1 => do
    let shown ← walk f r limit n
    let page ← f.answer (r.atPage limit (n + 1))
    return shown ++ page.data

section Definitions

variable (f : Federation Collection) (plan : Plan f.schema.relations)
  (driving : RelationId f.schema.relations) (narrowing : List (RelationId f.schema.relations))

/-- The stored roots of the keys that the first `n` driving rows name. -/
def namedRoots (n : Nat) : List Record :=
  (keysOfFirst f plan driving narrowing n).filterMap (f.storedRoot? plan driving)

/-- The stored roots that satisfy the root's conditions and have a key that some driving row
names and every narrowing relation has. -/
def matchingRoots : List Record :=
  let keys := keysOfFirst f plan driving narrowing (drivingRows f plan driving).length
  f.root.rows.filter fun row => plan.routing.rootFilters.all (·.holds row) &&
    keys.any fun key => row.joinKey? (rootKeyField driving) = some key

end Definitions

variable {f : Federation Collection} {plan : Plan f.schema.relations}
  {driving : RelationId f.schema.relations} {narrowing : List (RelationId f.schema.relations)}

theorem namedRoots_of_length_le {m n : Nat} (hm : (drivingRows f plan driving).length ≤ m)
    (hn : (drivingRows f plan driving).length ≤ n) :
    f.namedRoots plan driving narrowing m = f.namedRoots plan driving narrowing n := by
  simp only [namedRoots, keysOfFirst_of_length_le driving narrowing hm hn]

theorem namedRoots_isPrefix_all (n : Nat) : f.namedRoots plan driving narrowing n <+:
    f.namedRoots plan driving narrowing (drivingRows f plan driving).length :=
  (keysOfFirst_isPrefix_all driving narrowing n).filterMap _

theorem toNat_offsetFor_atPage (r : Request) {limit : UInt64} (hlimit : limit.toNat ≠ 0) {n : Nat}
    (hn : n * limit.toNat < Word.greatest.toNat) :
    ((r.atPage limit (n + 1)).offsetFor limit).toNat = n * limit.toNat := by
  have hle : n ≤ n * limit.toNat := Nat.le_mul_of_pos_right n (Nat.pos_of_ne_zero hlimit)
  have hgreatest : Word.greatest.toNat = 18446744073709551615 := rfl
  have hnumber : (UInt64.ofNat (n + 1)).toNat = n + 1 := by
    rw [UInt64.toNat_ofNat']
    omega
  simp only [Request.offsetFor, Request.atPage, Word.toNat_mulSat, Word.toNat_pred, hnumber]
  rw [Nat.add_sub_cancel]
  omega

/-- The budget of a page is one window for each page up to it, and those that may be lost. -/
theorem namedRoots_windowBudget (plan : Plan f.schema.relations)
    (driving : RelationId f.schema.relations) (narrowing : List (RelationId f.schema.relations))
    (hlimit : plan.limit.toNat ≠ 0) {n : Nat}
    (hoffset : plan.offset.toNat = n * plan.limit.toNat)
    (hn : n * plan.limit.toNat < Word.greatest.toNat)
    (hrows : (drivingRows f plan driving).length < f.limits.maxOffset.toNat) :
    f.namedRoots plan driving narrowing (rowsIn plan (windowBudget f.limits (Execution.target plan)
        (Discovery.start plan.limit f.limits.maxOffset).cursor)) =
      f.namedRoots plan driving narrowing
        (plan.limit.toNat * (n + 1 + f.limits.maxIterations.toNat)) := by
  have hneeded : windowsFor (min (n * plan.limit.toNat + plan.limit.toNat) Word.greatest.toNat)
      plan.limit.toNat = n + 1 :=
    windowsFor_eq_succ hlimit (by omega) (by rw [Nat.succ_mul]; omega)
  rw [windowBudget_eq hlimit, hoffset, hneeded, rowsIn_eq hlimit, Nat.mul_comm plan.limit.toNat]
  rcases Nat.le_total (n + 1 + f.limits.maxIterations.toNat)
    (windowsFor f.limits.maxOffset.toNat plan.limit.toNat) with h | h
  · rw [Nat.min_eq_left h]
  · -- the last window ends behind the last row
    have hend := Nat.le_trans (Nat.le_of_lt hrows) (le_windowsFor_mul hlimit _)
    rw [Nat.min_eq_right h]
    exact namedRoots_of_length_le hend (Nat.le_trans hend (Nat.mul_le_mul_right _ h))

theorem answer_atPage (hfit : f.FitsWords) {r : Request} (hplan : f.plan r = .ok plan)
    (hstrategy : plan.strategy = .relationFirst driving narrowing)
    (hroot : plan.sorts.rootSorts = [])
    (hrows : (drivingRows f plan driving).length < f.limits.maxOffset.toNat)
    {limit : UInt64} (hlimit : limit.toNat ≠ 0) {n : Nat}
    (hn : n * limit.toNat < Word.greatest.toNat) :
    ∃ page, f.answer (r.atPage limit (n + 1)) = .ok page ∧
      page.data.map (·.outside plan.attached) =
        (((f.namedRoots plan driving narrowing
          (limit.toNat * (n + 1 + f.limits.maxIterations.toNat))).drop (n * limit.toNat)).take
            limit.toNat).map (·.outside plan.attached) := by
  have hpage := Plan.make_windowed hplan (some (UInt64.ofNat (n + 1))) none hlimit
  have hoffset := toNat_offsetFor_atPage r hlimit hn
  obtain ⟨page, hanswer, hdata⟩ := answer_eq_window hfit hpage hstrategy hroot
  refine ⟨page, hanswer, hdata.trans ?_⟩
  rw [← hoffset]
  have hroots := namedRoots_windowBudget
    (plan.windowed limit ((r.atPage limit (n + 1)).offsetFor limit)) driving narrowing hlimit
    hoffset hn hrows
  exact congrArg (fun roots : List Record =>
    ((roots.drop ((r.atPage limit (n + 1)).offsetFor limit).toNat).take limit.toNat).map
      (·.outside plan.attached)) hroots

/-- What is shown on a walk: page after page, cut out of what the budget of each names. -/
theorem walk_eq_pages (hfit : f.FitsWords) {r : Request} (hplan : f.plan r = .ok plan)
    (hstrategy : plan.strategy = .relationFirst driving narrowing)
    (hroot : plan.sorts.rootSorts = [])
    (hrows : (drivingRows f plan driving).length < f.limits.maxOffset.toNat)
    {limit : UInt64} (hlimit : limit.toNat ≠ 0) {n : Nat}
    (hn : ∀ p < n, p * limit.toNat < Word.greatest.toNat) :
    ∃ shown, f.walk r limit n = .ok shown ∧
      shown.map (·.outside plan.attached) =
        (Paging.pages (fun p => f.namedRoots plan driving narrowing
          (limit.toNat * (p + f.limits.maxIterations.toNat))) limit.toNat n).map
            (·.outside plan.attached) := by
  induction n with
  | zero => exact ⟨[], rfl, rfl⟩
  | succ n ih =>
    obtain ⟨shown, hwalk, hshown⟩ := ih fun p hp => hn p (Nat.lt_succ_of_lt hp)
    obtain ⟨page, hanswer, hdata⟩ := answer_atPage hfit hplan hstrategy hroot hrows hlimit
      (hn n (Nat.lt_succ_self n))
    refine ⟨shown ++ page.data, ?_, ?_⟩
    · exact Plan.bind_eq_ok_iff.2 ⟨shown, hwalk, Plan.bind_eq_ok_iff.2 ⟨page, hanswer, rfl⟩⟩
    · simp only [List.map_append, hshown, hdata, Paging.pages_succ]

/-! ## The matching roots -/

theorem joinKey?_of_storedRoot? {key : JoinKey} {root : Record}
    (h : f.storedRoot? plan driving key = some root) :
    root.joinKey? (rootKeyField driving) = some key := by
  have hfound := List.find?_some h
  simp only [Bool.and_eq_true, decide_eq_true_iff] at hfound
  exact hfound.2

/-- The named roots stand in the order in which their keys do. -/
theorem map_joinKey?_namedRoots (n : Nat) :
    (f.namedRoots plan driving narrowing n).map (·.joinKey? (rootKeyField driving)) =
      ((keysOfFirst f plan driving narrowing n).filter fun key =>
        (f.storedRoot? plan driving key).isSome).map some := by
  unfold namedRoots
  induction keysOfFirst f plan driving narrowing n with
  | nil => rfl
  | cons key rest ih =>
    cases h : f.storedRoot? plan driving key with
    | none => simpa [h] using ih
    | some root => simpa [h, joinKey?_of_storedRoot? h] using ih

theorem nodup_namedRoots (n : Nat) : (f.namedRoots plan driving narrowing n).Nodup := by
  apply List.Nodup.of_map (·.joinKey? (rootKeyField driving))
  rw [map_joinKey?_namedRoots]
  exact ((nodup_keysOfFirst driving narrowing n).filter _).map fun _ _ h => Option.some.inj h

/-- The keys of the named roots stand in the order in which the driving rows name them first. -/
theorem keys_namedRoots_sublist :
    ((f.namedRoots plan driving narrowing (drivingRows f plan driving).length).map
      (·.joinKey? (rootKeyField driving))).Sublist
        ((Record.joinKeys (drivingRows f plan driving)
          (f.schema.relations.get driving).relationKeyField).map some) := by
  simp only [map_joinKey?_namedRoots, keysOfFirst, List.take_length]
  exact (List.filter_sublist.trans List.filter_sublist).map some

theorem eq_of_joinKey?_eq {rows : List Record} {field : String}
    (hdistinct : (rows.filterMap (·.joinKey? field)).Nodup) {a b : Record} (ha : a ∈ rows)
    (hb : b ∈ rows) {key : JoinKey} (hakey : a.joinKey? field = some key)
    (hbkey : b.joinKey? field = some key) : a = b := by
  induction rows with
  | nil => cases ha
  | cons row rest ih =>
    have hrest : (rest.filterMap (·.joinKey? field)).Nodup :=
      hdistinct.sublist ((List.sublist_cons_self row rest).filterMap _)
    have hfirst : row.joinKey? field = some key → key ∉ rest.filterMap (·.joinKey? field) := by
      intro hrow
      simp only [List.filterMap_cons, hrow] at hdistinct
      exact (List.nodup_cons.1 hdistinct).1
    rcases List.mem_cons.1 ha with rfl | ha' <;> rcases List.mem_cons.1 hb with rfl | hb'
    · rfl
    · exact absurd (List.mem_filterMap.2 ⟨b, hb', hbkey⟩) (hfirst hakey)
    · exact absurd (List.mem_filterMap.2 ⟨a, ha', hakey⟩) (hfirst hbkey)
    · exact ih hrest ha' hb'

theorem mem_matchingRoots_iff {root : Record} : root ∈ f.matchingRoots plan driving narrowing ↔
    root ∈ f.root.rows ∧ plan.routing.rootFilters.all (·.holds root) = true ∧
      ∃ key ∈ keysOfFirst f plan driving narrowing (drivingRows f plan driving).length,
        root.joinKey? (rootKeyField driving) = some key := by
  simp only [matchingRoots, List.mem_filter, Bool.and_eq_true, List.any_eq_true,
    decide_eq_true_iff]

theorem length_matchingRoots_le (hfit : f.FitsWords) :
    (f.matchingRoots plan driving narrowing).length ≤ Word.greatest.toNat := by
  have hcount : f.root.rows.length < 18446744073709551616 := hfit .root
  exact Nat.le_trans (List.length_filter_le ..) (Nat.le_of_lt_succ hcount)

theorem nodup_matchingRoots
    (hdistinct : (f.root.rows.filterMap (·.joinKey? (rootKeyField driving))).Nodup) :
    (f.matchingRoots plan driving narrowing).Nodup := by
  have hrows := (List.pairwise_filterMap.1 hdistinct).sublist
    (List.filter_sublist : (f.matchingRoots plan driving narrowing).Sublist f.root.rows)
  apply hrows.imp_of_mem
  intro a b ha _ hdiffer hab
  obtain ⟨-, -, key, -, hkey⟩ := mem_matchingRoots_iff.1 ha
  exact hdiffer key hkey key (hab ▸ hkey) rfl

/-- Roots with distinct keys match when they are the stored root of a key that is named. -/
theorem perm_matchingRoots
    (hdistinct : (f.root.rows.filterMap (·.joinKey? (rootKeyField driving))).Nodup) :
    (f.namedRoots plan driving narrowing (drivingRows f plan driving).length).Perm
      (f.matchingRoots plan driving narrowing) := by
  apply (List.perm_ext_iff_of_nodup (nodup_namedRoots _) (nodup_matchingRoots hdistinct)).2
  intro root
  simp only [namedRoots, List.mem_filterMap, mem_matchingRoots_iff]
  constructor
  · rintro ⟨key, hkey, hroot⟩
    have hfound := List.find?_some hroot
    simp only [Bool.and_eq_true, decide_eq_true_iff] at hfound
    exact ⟨List.mem_of_find?_eq_some hroot, hfound.1, key, hkey, hfound.2⟩
  · rintro ⟨hroot, hholds, key, hkey, hrootkey⟩
    refine ⟨key, hkey, ?_⟩
    -- the first stored root of the key is this one, since no two share a key
    cases hstored : f.storedRoot? plan driving key with
    | none =>
      have hnone := List.find?_eq_none.1 hstored root hroot
      simp [hholds, hrootkey] at hnone
    | some other =>
      have hother := List.mem_of_find?_eq_some hstored
      rw [eq_of_joinKey?_eq hdistinct hother hroot (joinKey?_of_storedRoot? hstored) hrootkey]

/-- On a walk over all pages the matching roots are shown, each once and in the order in which
the driving rows name them first, exactly when the budget of every page reaches far enough. -/
theorem walk_eq_matchingRoots_iff (hfit : f.FitsWords) {r : Request} (hplan : f.plan r = .ok plan)
    (hstrategy : plan.strategy = .relationFirst driving narrowing)
    (hroot : plan.sorts.rootSorts = [])
    (hdistinct : (f.root.rows.filterMap (·.joinKey? (rootKeyField driving))).Nodup)
    (hrows : (drivingRows f plan driving).length < f.limits.maxOffset.toNat)
    (limit : UInt64) (hlimit : limit.toNat ≠ 0) :
    let roots := f.matchingRoots plan driving narrowing
    let pages := windowsFor roots.length limit.toNat
    let order := f.namedRoots plan driving narrowing (drivingRows f plan driving).length
    order.Perm roots ∧
      (order.map (·.joinKey? (rootKeyField driving))).Sublist
        ((Record.joinKeys (drivingRows f plan driving)
          (f.schema.relations.get driving).relationKeyField).map some) ∧
      ∃ shown, f.walk r limit pages = .ok shown ∧
        (shown.map (·.outside plan.attached) = order.map (·.outside plan.attached) ↔
          ∀ p, 1 ≤ p → p ≤ pages → min (p * limit.toNat) roots.length ≤
            (f.namedRoots plan driving narrowing
              (limit.toNat * (p + f.limits.maxIterations.toNat))).length) := by
  intro roots pages order
  have hperm : order.Perm roots := perm_matchingRoots hdistinct
  have hlength : order.length = roots.length := hperm.length_eq
  have hseen : ∀ p, f.namedRoots plan driving narrowing
      (limit.toNat * (p + f.limits.maxIterations.toNat)) <+: order :=
    fun p => namedRoots_isPrefix_all _
  have hstart : ∀ p < pages, p * limit.toNat < order.length := by
    intro p hp
    rw [hlength]
    exact (lt_windowsFor_iff hlimit p roots.length).1 hp
  have hend : order.length ≤ pages * limit.toNat := by
    rw [hlength]
    exact le_windowsFor_mul hlimit roots.length
  have hword : ∀ p < pages, p * limit.toNat < Word.greatest.toNat := by
    intro p hp
    apply Nat.lt_of_lt_of_le (hstart p hp)
    rw [hlength]
    exact length_matchingRoots_le hfit
  obtain ⟨shown, hwalk, hshown⟩ := walk_eq_pages hfit hplan hstrategy hroot hrows hlimit hword
  refine ⟨hperm, keys_namedRoots_sublist, shown, hwalk, ?_⟩
  rw [hshown, ← hlength]
  constructor
  · intro hsame p hone hp
    have hshownLength := congrArg List.length hsame
    simp only [List.length_map] at hshownLength
    have hfull := Paging.full_of_length_pages hlimit hseen hstart
      (hshownLength.trans (Nat.min_eq_right hend).symm) (p - 1) (by omega)
    rwa [Nat.sub_add_cancel hone] at hfull
  · intro hfull
    have hpages := Paging.pages_eq_take hseen fun p hp => hfull (p + 1) (Nat.succ_pos p) hp
    simp only [hpages, List.take_of_length_le hend]

end Federation

namespace Shop

open Federation Execution

/-- Three orders of the first customer come before the one of the second. -/
def crowded (maxIterations : UInt64) : Federation Collection :=
  federation orders ⟨maxIterations, 100, 10, true⟩ [customer 1 0, customer 2 0]
    [order 1 7, order 1 8, order 1 9, order 2 7]

def ordering : Request := { Request.empty with filters := [priced orders] }

def orderingPlan (maxIterations : UInt64) : Plan (crowded maxIterations).schema.relations where
  routing := .ofRequest _ ordering
  sorts := ⟨[], []⟩
  strategy := .relationFirst theRelation []
  hydrated := [theRelation]
  limit := 10
  offset := 0

theorem plan_crowded (n : UInt64) : (crowded n).plan ordering = .ok (orderingPlan n) := rfl

theorem fitsWords_crowded (n : UInt64) : (crowded n).FitsWords := fitsWords (by decide) (by decide)

theorem nodup_keys_crowded (n : UInt64) :
    ((crowded n).root.rows.filterMap (·.joinKey? "id")).Nodup := by
  have hkeys : (crowded n).root.rows.filterMap (·.joinKey? "id") = [.int 1, .int 2] := by cbv
  rw [hkeys]
  decide

theorem length_drivingRows_crowded (n : UInt64) :
    (drivingRows (crowded n) (orderingPlan n) (0 : Fin 1)).length < 100 := by
  have hlength : (drivingRows (crowded n) (orderingPlan n) (0 : Fin 1)).length = 4 := by cbv
  rw [hlength]
  decide

theorem pages_crowded (n : UInt64) :
    windowsFor ((crowded n).matchingRoots (orderingPlan n) (0 : Fin 1) []).length 1 = 2 := by
  have hlength : ((crowded n).matchingRoots (orderingPlan n) (0 : Fin 1) []).length = 2 := by cbv
  rw [hlength]
  rfl

theorem namedRoots_crowded (n : UInt64) : (crowded n).namedRoots (orderingPlan n) (0 : Fin 1) []
    (drivingRows (crowded n) (orderingPlan n) (0 : Fin 1)).length =
      [customer 1 0, customer 2 0] := by cbv

/-- A slack of three windows gets over the repeated orders. -/
theorem walk_crowded : ∃ shown, (crowded 3).walk ordering 1 2 = .ok shown ∧
    shown.map (·.outside ["orders"]) =
      [customer 1 0, customer 2 0].map (·.outside ["orders"]) := by
  have hfirst : ((crowded 3).namedRoots (orderingPlan 3) (0 : Fin 1) [] 4).length = 2 := by cbv
  have hsecond : ((crowded 3).namedRoots (orderingPlan 3) (0 : Fin 1) [] 5).length = 2 := by cbv
  obtain ⟨-, -, shown, hwalk, hiff⟩ := walk_eq_matchingRoots_iff (fitsWords_crowded 3)
    (plan_crowded 3) rfl rfl (nodup_keys_crowded 3) (length_drivingRows_crowded 3) 1 (by decide)
  refine ⟨shown, ?_, ?_⟩
  · rw [← pages_crowded 3]
    exact hwalk
  · rw [← namedRoots_crowded 3]
    refine hiff.2 fun p hone hp => ?_
    have htwo : p ≤ 2 := Nat.le_trans hp (Nat.le_of_eq (pages_crowded 3))
    obtain rfl | rfl : p = 1 ∨ p = 2 := by omega
    · exact Nat.le_trans (Nat.min_le_left ..) (Nat.le_trans (by decide) (Nat.le_of_eq hfirst.symm))
    · exact Nat.le_trans (Nat.min_le_left ..) (Nat.le_of_eq hsecond.symm)

/-- With a slack of one window the second customer is on no page of one. -/
theorem not_forall_walk_eq_matchingRoots : ¬ ∀ (f : Federation Collection) (r : Request)
    (plan : Plan f.schema.relations) (driving : RelationId f.schema.relations)
    (narrowing : List (RelationId f.schema.relations)), f.FitsWords → f.plan r = .ok plan →
    plan.strategy = .relationFirst driving narrowing → plan.sorts.rootSorts = [] →
    (f.root.rows.filterMap (·.joinKey? (rootKeyField driving))).Nodup →
    1 ≤ f.limits.maxIterations → (drivingRows f plan driving).length < f.limits.maxOffset.toNat →
    ∀ limit : UInt64, limit.toNat ≠ 0 →
      let roots := f.matchingRoots plan driving narrowing
      let order := f.namedRoots plan driving narrowing (drivingRows f plan driving).length
      ∃ shown, f.walk r limit (windowsFor roots.length limit.toNat) = .ok shown ∧
        shown.map (·.outside plan.attached) = order.map (·.outside plan.attached) := by
  intro h
  obtain ⟨shown, hwalk, hshown⟩ := h (crowded 1) ordering (orderingPlan 1) (0 : Fin 1) []
    (fitsWords_crowded 1) (plan_crowded 1) rfl rfl (nodup_keys_crowded 1) (by decide)
    (length_drivingRows_crowded 1) 1 (by decide)
  have hone : ((crowded 1).walk ordering 1 2).map List.length = .ok 1 := by cbv
  rw [← pages_crowded 1] at hone
  have hlength : shown.length = 1 :=
    Except.ok.inj ((congrArg (Except.map List.length) hwalk).symm.trans hone)
  have hsame := congrArg List.length hshown
  simp only [List.length_map, namedRoots_crowded, hlength] at hsame
  cases hsame

end Shop

end FederatedJoin
