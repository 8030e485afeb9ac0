-- SUMMARY: When a page that holds all roots shows the same roots with and without root sort keys.
import FederatedJoin.Proofs.PageWalk
import FederatedJoin.Proofs.RootOrder
import FederatedJoin.Proofs.ShownRoots

/-!
# Root sorts

A request that is given root sort keys is executed in another way: the root's
provider is asked for all discovered keys at once and pages what it finds, where
otherwise one root is shown for each key in the order of discovery. On a page
large enough for all roots both show the same roots when every root that a key
names has a join key and no two have the same. They differ otherwise: of roots
that share a key only the first is shown in the order of discovery, and a root
whose key field equals a key without being one, as a double does, is not shown
there at all.
-/

namespace FederatedJoin

/-! ## Requests with root sorts -/

theorem Routing.sortsBy_of_untagged {relations : List Relation} {r : Request}
    (h : ∀ key ∈ r.sorts, key.relation = none) (id : RelationId relations) :
    sortsBy r id = false := by
  apply List.any_eq_false.2
  intro key hkey
  rw [h key hkey]
  exact fun heq => nomatch of_decide_eq_true heq

theorem Routing.ofRequest_of_untagged (relations : List Relation) {r : Request}
    (hunsorted : r.sorts = []) {sorts : List SortKey} (h : ∀ key ∈ sorts, key.relation = none) :
    ofRequest relations { r with sorts := sorts } = ofRequest relations r := by
  have hnone : ∀ key ∈ r.sorts, key.relation = none := by
    intro key hkey
    rw [hunsorted] at hkey
    cases hkey
  unfold ofRequest
  simp only [sortsBy_of_untagged (r := r) hnone,
    sortsBy_of_untagged (r := { r with sorts := sorts }) h]
  rfl

theorem SortSplit.ofKeys_of_untagged (relations : List Relation) {keys : List SortKey}
    (h : ∀ key ∈ keys, key.relation = none) : ofKeys relations none keys = .ok ⟨[], keys⟩ := by
  induction keys with
  | nil => rfl
  | cons key rest ih =>
    obtain ⟨hkey, hrest⟩ := List.forall_mem_cons.1 h
    simp only [ofKeys, hkey, Scope.ofTag, ih hrest]
    rfl

namespace Plan

variable {relations : List Relation} {limits : Limits} {r : Request} {plan : Plan relations}

/-- The plan with these sort keys, all of the root. -/
def sortedBy (plan : Plan relations) (sorts : List SortKey) : Plan relations :=
  { plan with sorts := ⟨[], sorts⟩ }

@[simp] theorem offset_sortedBy (plan : Plan relations) (sorts : List SortKey) :
    (plan.sortedBy sorts).offset = plan.offset := rfl

theorem sortedBy_nil (h : make relations limits r = .ok plan) (hunsorted : r.sorts = []) :
    plan.sortedBy [] = plan := by
  have hsorts := (make_eq_ok_iff.1 h).sorts_eq
  unfold SortSplit.ofRequest at hsorts
  rw [hunsorted] at hsorts
  unfold sortedBy
  rw [Except.ok.inj hsorts]

/-- Root sorts change nothing else about a plan. -/
theorem make_sortedBy (h : make relations limits r = .ok plan) (hunsorted : r.sorts = [])
    {sorts : List SortKey} (hroot : ∀ key ∈ sorts, key.relation = none) :
    make relations limits { r with sorts := sorts } = .ok (plan.sortedBy sorts) := by
  have hmade := make_eq_ok_iff.1 h
  have hself := sortedBy_nil h hunsorted
  have howners := hmade.owners
  have hstrategy := hmade.strategy_eq
  rw [← hself] at howners hstrategy
  exact make_eq_ok_iff.2 { hmade with
    owners := howners
    routing_eq := (Routing.ofRequest_of_untagged relations hunsorted hroot).trans hmade.routing_eq
    sorts_eq := SortSplit.ofKeys_of_untagged relations hroot
    strategy_eq := hstrategy }

end Plan

namespace Federation

open Hydration Execution Discovery

variable {f : Federation Collection} {plan : Plan f.schema.relations}
  {driving : RelationId f.schema.relations} {narrowing : List (RelationId f.schema.relations)}

/-! ## Roots in another order -/

/-- Roots in another order get the same records. -/
theorem hydrated_perm (hfit : f.FitsWords) (hvalid : f.schema.validate = .ok ()) {r : Request}
    {limits : Limits} (hmade : plan.MadeFor limits r) {roots others : List Record}
    (h : roots.Perm others) : (hydrated f plan roots).Perm (hydrated f plan others) := by
  have hrecord : f.joinedRecord r plan roots = f.joinedRecord r plan others := by
    funext root
    unfold joinedRecord attachedValue
    simp only [overwritten_perm h]
  rw [hydrated_eq_map hfit hvalid hmade, hydrated_eq_map hfit hvalid hmade, hrecord]
  exact h.map _

theorem length_sortedRoots_le (plan : Plan f.schema.relations)
    (driving : RelationId f.schema.relations) (keys : List JoinKey) :
    (f.sortedRoots plan driving keys).length ≤ f.root.rows.length := by
  simp only [sortedRoots, SortKey.sort, List.length_mergeSort]
  exact List.length_filter_le ..

theorem sortedRoots_sortedBy_perm (plan : Plan f.schema.relations) (sorts : List SortKey)
    (driving : RelationId f.schema.relations) (keys : List JoinKey) :
    (f.sortedRoots (plan.sortedBy sorts) driving keys).Perm (f.sortedRoots plan driving keys) :=
  (List.mergeSort_perm ..).trans (List.mergeSort_perm ..).symm

/-! ## One root for each key -/

theorem namedRoots_subset (n : Nat) : f.namedRoots plan driving narrowing n ⊆
    f.sortedRoots plan driving (keysOfFirst f plan driving narrowing n) := by
  intro root hroot
  obtain ⟨key, hkey, hstored⟩ := List.mem_filterMap.1 hroot
  have hrootkey := joinKey?_of_storedRoot? hstored
  have hfound := List.find?_some hstored
  rw [Bool.and_eq_true] at hfound
  refine mem_sortedRoots.2 ⟨List.mem_of_find?_eq_some hstored, hfound.1, key, hkey, ?_⟩
  exact (Condition.holds_equal_key hrootkey key).2 rfl

/-- A named root with a join key has a first one of its key. -/
theorem exists_namedRoot {n : Nat} {root : Record}
    (hroot : root ∈ f.sortedRoots plan driving (keysOfFirst f plan driving narrowing n))
    {key : JoinKey} (hkey : root.joinKey? (rootKeyField driving) = some key) :
    ∃ first ∈ f.namedRoots plan driving narrowing n,
      first.joinKey? (rootKeyField driving) = some key := by
  obtain ⟨hstored, hfilters, -⟩ := mem_sortedRoots.1 hroot
  have hnamed := mem_keys_of_mem_sortedRoots hroot hkey
  cases hfirst : f.storedRoot? plan driving key with
  | none =>
    have hnone := List.find?_eq_none.1 hfirst root hstored
    rw [hfilters, hkey] at hnone
    exact absurd (decide_eq_true rfl) hnone
  | some first =>
    exact ⟨first, List.mem_filterMap.2 ⟨key, hnamed, hfirst⟩, joinKey?_of_storedRoot? hfirst⟩

/-- One root for each key are all roots that the keys name when these have distinct keys. -/
theorem namedRoots_perm_iff (n : Nat) :
    let roots := f.sortedRoots plan driving (keysOfFirst f plan driving narrowing n)
    (f.namedRoots plan driving narrowing n).Perm roots ↔
      (∀ root ∈ roots, root.joinKey? (rootKeyField driving) ≠ none) ∧
        (roots.map (·.joinKey? (rootKeyField driving))).Nodup := by
  intro roots
  constructor
  · intro hperm
    have hkeys := hperm.map (·.joinKey? (rootKeyField driving))
    rw [map_joinKey?_namedRoots] at hkeys
    constructor
    · intro root hroot hnone
      obtain ⟨key, -, hkey⟩ := List.mem_map.1 (hkeys.mem_iff.2 (List.mem_map_of_mem hroot))
      rw [hnone] at hkey
      cases hkey
    · apply hkeys.nodup_iff.1
      have hdistinct : (keysOfFirst f plan driving narrowing n).Nodup :=
        nodup_keysOfFirst driving narrowing n
      exact (hdistinct.filter _).map fun _ _ => Option.some.inj
  · rintro ⟨hkeyed, hdistinct⟩
    apply (List.perm_ext_iff_of_nodup (nodup_namedRoots n) hdistinct.of_map).2
    intro root
    refine ⟨fun hroot => namedRoots_subset n hroot, fun hroot => ?_⟩
    obtain ⟨key, hkey⟩ := Option.ne_none_iff_exists'.1 (hkeyed root hroot)
    obtain ⟨first, hfirst, hfirstkey⟩ := exists_namedRoot hroot hkey
    have hsame := List.inj_on_of_nodup_map hdistinct (namedRoots_subset n hfirst) hroot
      (hfirstkey.trans hkey.symm)
    exact hsame ▸ hfirst

theorem namedRoots_perm_of_length {n : Nat}
    (h : (f.sortedRoots plan driving (keysOfFirst f plan driving narrowing n)).length ≤
      (f.namedRoots plan driving narrowing n).length) :
    (f.namedRoots plan driving narrowing n).Perm
      (f.sortedRoots plan driving (keysOfFirst f plan driving narrowing n)) :=
  (List.subperm_of_subset (nodup_namedRoots n) (namedRoots_subset n)).perm_of_length_le h

/-! ## Pages that hold all roots -/

section Pages

variable {r : Request} (hfit : f.FitsWords) (hplan : f.plan r = .ok plan)
  (hstrategy : plan.strategy = .relationFirst driving narrowing) (hoffset : plan.offset = 0)
  (hdriving : (drivingRows f plan driving).length < plan.limit.toNat)
  (hmax : f.limits.maxOffset ≠ 0)

include hmax in
/-- A window that starts below the greatest offset holds more than all driving rows. -/
theorem one_le_windowsFor_maxOffset (hlimit : plan.limit.toNat ≠ 0) :
    1 ≤ windowsFor f.limits.maxOffset.toNat plan.limit.toNat := by
  apply (lt_windowsFor_iff hlimit 0 _).2
  rw [Nat.zero_mul]
  exact Nat.pos_of_ne_zero fun h => hmax (UInt64.toNat_inj.1 h)

include hfit hplan hstrategy hoffset hdriving hmax

/-- In the order of discovery the page shows one root for each key. -/
theorem answer_of_unsorted (hsorts : plan.sorts.rootSorts = []) :
    ∃ total, f.answer r = .ok (hydratedPage f plan
      (f.namedRoots plan driving narrowing (drivingRows f plan driving).length) total) := by
  have hlimit := Plan.toNat_limit_ne_zero hplan
  have hneeded : 1 ≤ windowsFor (min (plan.offset.toNat + plan.limit.toNat) Word.greatest.toNat)
      plan.limit.toNat := by
    apply (lt_windowsFor_iff hlimit 0 _).2
    have hgreatest : Word.greatest.toNat = 18446744073709551615 := rfl
    omega
  have hbelow := one_le_windowsFor_maxOffset hmax hlimit
  have hrows : (drivingRows f plan driving).length ≤ rowsIn plan (windowBudget f.limits
      (Execution.target plan) (Discovery.start plan.limit f.limits.maxOffset).cursor) := by
    rw [windowBudget_eq hlimit, rowsIn_eq hlimit]
    apply Nat.le_trans (Nat.le_of_lt hdriving)
    apply Nat.le_mul_of_pos_left
    omega
  have hfew : (f.namedRoots plan driving narrowing (drivingRows f plan driving).length).length ≤
      plan.limit.toNat := by
    have hkeys := length_keysOfFirst_le f plan driving narrowing (drivingRows f plan driving).length
    exact Nat.le_trans (List.length_filterMap_le ..) (Nat.le_trans hkeys (Nat.le_of_lt hdriving))
  obtain ⟨total, hanswer⟩ := answer_eq_hydratedPage hfit hplan hstrategy hsorts
  refine ⟨total, hanswer.trans ?_⟩
  rw [keysOfFirst_of_length_le driving narrowing hrows (Nat.le_refl _), hoffset]
  exact congrArg (fun roots => Except.ok (hydratedPage f plan roots total))
    (List.take_of_length_le hfew)

/-- Sorted by the root, it shows all roots that the keys name. -/
theorem answer_of_sorted (hunsorted : r.sorts = []) (hroots : f.root.rows.length < plan.limit.toNat)
    {sorts : List SortKey} (hsorts : sorts ≠ []) (hroot : ∀ key ∈ sorts, key.relation = none) :
    ∃ total, f.answer { r with sorts := sorts } = .ok (hydratedPage f (plan.sortedBy sorts)
      (f.sortedRoots (plan.sortedBy sorts) driving
        (keysOfFirst f plan driving narrowing (drivingRows f plan driving).length)) total) := by
  have hlimit := Plan.toNat_limit_ne_zero hplan
  have hsorted := Plan.make_sortedBy hplan hunsorted hroot
  have hkeys : keysOfFirst f (plan.sortedBy sorts) driving narrowing
      (plan.limit.toNat * windowsFor f.limits.maxOffset.toNat plan.limit.toNat) =
        keysOfFirst f plan driving narrowing (drivingRows f plan driving).length := by
    have hbelow := one_le_windowsFor_maxOffset hmax hlimit
    have hsame : keysOfFirst f (plan.sortedBy sorts) driving narrowing =
        keysOfFirst f (plan.sortedBy []) driving narrowing := rfl
    rw [hsame, Plan.sortedBy_nil hplan hunsorted]
    apply keysOfFirst_of_length_le driving narrowing _ (Nat.le_refl _)
    exact Nat.le_trans (Nat.le_of_lt hdriving) (Nat.le_mul_of_pos_right _ hbelow)
  obtain ⟨d, hread, hdkeys, -⟩ := @answers_readAll_start f (plan.sortedBy sorts) driving narrowing
    hfit hlimit f.limits.maxOffset
  obtain ⟨total, hpage, -⟩ := answers_rootOrdered_hydrated hfit
    (Plan.rootOrFilters_eq_nil hsorted) driving d
  have hfew : (f.sortedRoots (plan.sortedBy sorts) driving d.keys).length ≤ plan.limit.toNat :=
    Nat.le_trans (length_sortedRoots_le _ driving _) (Nat.le_of_lt hroots)
  have hwindow : ((f.sortedRoots (plan.sortedBy sorts) driving d.keys).drop
      (plan.sortedBy sorts).offset.toNat).take (plan.sortedBy sorts).limit.toNat =
        f.sortedRoots (plan.sortedBy sorts) driving d.keys := by
    rw [Plan.offset_sortedBy, hoffset]
    exact List.take_of_length_le hfew
  have hordered : (plan.sortedBy sorts).isRootOrdered = true := by
    show (!sorts.isEmpty) = true
    rw [List.isEmpty_eq_false_iff.2 hsorts]
    rfl
  have hsame : (plan.sortedBy sorts).strategy = .relationFirst driving narrowing := hstrategy
  rw [hwindow, hdkeys] at hpage
  refine ⟨total, answer_of_plan hsorted ?_⟩
  rw [pageOfPlan_of_relationFirst hsame, if_pos hordered, ← hkeys]
  exact hread.bind hpage

end Pages

/-- On a page that holds all roots, root sorts only reorder what is shown if and only if every
root that a discovered key names has a join key and no two have the same. -/
theorem sorted_perm_iff (hfit : f.FitsWords) (hvalid : f.schema.validate = .ok ()) {r : Request}
    (hplan : f.plan r = .ok plan) (hstrategy : plan.strategy = .relationFirst driving narrowing)
    (hunsorted : r.sorts = []) (hoffset : plan.offset = 0)
    (hroots : f.root.rows.length < plan.limit.toNat)
    (hdriving : (drivingRows f plan driving).length < plan.limit.toNat)
    (hmax : f.limits.maxOffset ≠ 0) {sorts : List SortKey} (hsorts : sorts ≠ [])
    (hroot : ∀ key ∈ sorts, key.relation = none) :
    let keys := keysOfFirst f plan driving narrowing (drivingRows f plan driving).length
    let roots := f.sortedRoots plan driving keys
    ∃ page sorted, f.answer r = .ok page ∧ f.answer { r with sorts := sorts } = .ok sorted ∧
      (sorted.data.Perm page.data ↔
        (∀ root ∈ roots, root.joinKey? (rootKeyField driving) ≠ none) ∧
          (roots.map (·.joinKey? (rootKeyField driving))).Nodup) := by
  intro keys roots
  have hmade := Plan.make_eq_ok_iff.1 hplan
  have hnone : plan.sorts.rootSorts = [] := by
    rw [← Plan.sortedBy_nil hplan hunsorted]
    rfl
  obtain ⟨total, hpage⟩ :=
    answer_of_unsorted hfit hplan hstrategy hoffset hdriving hmax hnone
  obtain ⟨all, hsorted⟩ := answer_of_sorted hfit hplan hstrategy hoffset hdriving hmax hunsorted
    hroots hsorts hroot
  refine ⟨_, _, hpage, hsorted, ?_⟩
  let named := f.namedRoots plan driving narrowing (drivingRows f plan driving).length
  have hpermuted := hydrated_perm hfit hvalid hmade (sortedRoots_sortedBy_perm plan sorts driving keys)
  refine Iff.trans ?_ (namedRoots_perm_iff (drivingRows f plan driving).length)
  show (hydrated f plan (f.sortedRoots (plan.sortedBy sorts) driving keys)).Perm
    (hydrated f plan named) ↔ named.Perm roots
  constructor
  · intro hperm
    apply namedRoots_perm_of_length
    have hlength := (hpermuted.symm.trans hperm).length_eq
    rw [length_hydrated, length_hydrated] at hlength
    exact Nat.le_of_eq hlength
  · intro hperm
    exact hpermuted.trans (hydrated_perm hfit hvalid hmade hperm.symm)

end Federation

namespace Shop

open Federation Execution

/-- The customers with a priced order, sorted by these keys of the customer. -/
def buyers (relation : Relation) (sorts : List SortKey) : Request :=
  { Request.empty with filters := [priced relation], sorts := sorts }

def rankedPlan : Plan ranked.schema.relations where
  routing := .ofRequest _ (buyers orders [])
  sorts := ⟨[], []⟩
  strategy := .relationFirst theRelation []
  hydrated := [theRelation]
  limit := 10
  offset := 0

/-- Two of three customers have orders, and sorting them by rank shows them the other way round. -/
theorem sorted_perm_ranked : ∃ page sorted, ranked.answer (buyers orders []) = .ok page ∧
    ranked.answer (buyers orders [⟨"rank", .ascending, none⟩]) = .ok sorted ∧
    page.data.length = 2 ∧ sorted.data.Perm page.data := by
  have hplan : ranked.plan (buyers orders []) = .ok rankedPlan := rfl
  have hdriving : (drivingRows ranked rankedPlan (0 : Fin 1)).length = 2 := by cbv
  have hroots : ranked.sortedRoots rankedPlan (0 : Fin 1) (keysOfFirst ranked rankedPlan (0 : Fin 1)
      [] (drivingRows ranked rankedPlan (0 : Fin 1)).length) = [customer 1 20, customer 2 10] := by
    cbv
  have hcount : (ranked.answer (buyers orders [])).map (·.data.length) = .ok 2 := by cbv
  have hfit : ranked.FitsWords := fitsWords (by decide) (by decide)
  have hshort : (drivingRows ranked rankedPlan (0 : Fin 1)).length < 10 := by
    rw [hdriving]
    decide
  obtain ⟨page, sorted, hpage, hsorted, hiff⟩ := sorted_perm_iff hfit rfl hplan rfl rfl rfl
    (by decide) hshort (by decide) (List.cons_ne_nil ⟨"rank", .ascending, none⟩ []) (by simp)
  rw [hpage] at hcount
  refine ⟨page, sorted, hpage, hsorted, Except.ok.inj hcount, hiff.2 ?_⟩
  rw [hroots]
  decide

/-- The orders of all customers of a rank. -/
def ordersOfRank : Relation := .hasMany "orders" "orders" "rank" "customer"

/-- Two customers share the rank that the one order names. -/
def sharedRank : Federation Collection :=
  federation ordersOfRank ⟨10, 100, 10, true⟩ [customer 1 5, customer 2 5] [order 5 7]

def sharedRankPlan : Plan sharedRank.schema.relations where
  routing := .ofRequest _ (buyers ordersOfRank [])
  sorts := ⟨[], []⟩
  strategy := .relationFirst theRelation []
  hydrated := [theRelation]
  limit := 10
  offset := 0

/-- Without sort keys only the first of the two customers is shown. -/
theorem not_forall_sorted_perm : ¬ ∀ (f : Federation Collection) (r : Request)
    (plan : Plan f.schema.relations) (driving : RelationId f.schema.relations)
    (narrowing : List (RelationId f.schema.relations)) (sorts : List SortKey),
    f.FitsWords → f.schema.validate = .ok () → f.plan r = .ok plan →
    plan.strategy = .relationFirst driving narrowing → r.sorts = [] → plan.offset = 0 →
    f.root.rows.length < plan.limit.toNat → (drivingRows f plan driving).length < plan.limit.toNat →
    f.limits.maxOffset ≠ 0 → sorts ≠ [] → (∀ key ∈ sorts, key.relation = none) →
    ∃ page sorted, f.answer r = .ok page ∧ f.answer { r with sorts := sorts } = .ok sorted ∧
      sorted.data.Perm page.data := by
  intro h
  have hplan : sharedRank.plan (buyers ordersOfRank []) = .ok sharedRankPlan := rfl
  have hfit : sharedRank.FitsWords := fitsWords (by decide) (by decide)
  have hdriving : (drivingRows sharedRank sharedRankPlan (0 : Fin 1)).length = 1 := by cbv
  have hshort : (drivingRows sharedRank sharedRankPlan (0 : Fin 1)).length < 10 := by
    rw [hdriving]
    decide
  obtain ⟨page, sorted, hpage, hsorted, hperm⟩ := h sharedRank (buyers ordersOfRank [])
    sharedRankPlan (0 : Fin 1) [] [⟨"id", .ascending, none⟩] hfit rfl hplan rfl rfl rfl (by decide)
    hshort (by decide) (List.cons_ne_nil _ _) (by simp)
  have hone : (sharedRank.answer (buyers ordersOfRank [])).map (·.data.length) = .ok 1 := by cbv
  have htwo : (sharedRank.answer (buyers ordersOfRank [⟨"id", .ascending, none⟩])).map
      (·.data.length) = .ok 2 := by cbv
  have hsame : sharedRank.answer (buyers ordersOfRank [⟨"id", .ascending, none⟩]) = .ok sorted :=
    hsorted
  rw [hpage] at hone
  rw [hsame] at htwo
  have hlength : 2 = 1 :=
    (Except.ok.inj htwo).symm.trans (hperm.length_eq.trans (Except.ok.inj hone))
  cases hlength

end Shop

end FederatedJoin
