-- SUMMARY: Sorted by a relation with root sorts for ties, pages fit together exactly when the ties need no sorting.
import FederatedJoin.Proofs.Gathering
import FederatedJoin.Proofs.TieBreaks
import Mathlib.Data.List.Nodup

/-!
# Relation order with root sorts

Ties are broken among the roots that a page has discovered, and how many these
are depends on the window. So the pages of one request are windows of one list
only if breaking ties has nothing to do: the roots must be discovered in the
order in which they are to be shown.
-/

namespace FederatedJoin

/-! ## Orders told by pages -/

namespace Paging

/-- Two lists of the same items are equal when no item of the one comes sooner in the other. -/
theorem eq_of_getElem?_mem_take {α : Type} {xs ys : List α} (hperm : ys.Perm xs)
    (hnodup : xs.Nodup)
    (h : ∀ n < xs.length, ∃ a, ys[n]? = some a ∧ a ∈ xs.take (n + 1)) : xs = ys := by
  have htake : ∀ n ≤ xs.length, xs.take n = ys.take n := by
    intro n hn
    induction n with
    | zero => simp only [List.take_zero]
    | succ n ih =>
      have hfront := ih (Nat.le_of_succ_le hn)
      obtain ⟨a, ha, hmem⟩ := h n hn
      simp only [List.take_add_one, List.mem_append, Option.mem_toList] at hmem
      simp only [List.take_add_one, hfront, ha]
      cases hmem with
      | inl hsooner =>
        -- it would stand twice in the other list
        have hlater : (ys.drop n)[0]? = some a := by
          rw [List.getElem?_drop]
          exact ha
        rw [hfront] at hsooner
        exact (List.disjoint_take_drop (hperm.nodup_iff.2 hnodup) (Nat.le_refl n) hsooner
          (List.mem_of_getElem? hlater)).elim
      | inr hhere => rw [Option.mem_def.1 hhere]
  have hall := htake xs.length (Nat.le_refl _)
  rwa [List.take_length, ← hperm.length_eq, List.take_length] at hall

end Paging

/-! ## The claimed order -/

namespace Federation

open Execution Discovery

section Definitions

variable (f : Federation Collection) (plan : Plan f.schema.relations)
  (driving : RelationId f.schema.relations) (narrowing : List (RelationId f.schema.relations))

/-- The first driving row of a key. -/
def drivingRow (key : JoinKey) : Record :=
  ((drivingRows f plan driving).find?
    (·.joinKey? (f.schema.relations.get driving).relationKeyField = some key)).getD .empty

/-- The roots in order of discovery, when all driving rows are read. -/
def discovered : List (JoinKey × Record) :=
  f.joinedRoots plan driving narrowing (drivingRows f plan driving).length

/-- First the relation sorts on the first driving rows, then the root sorts. -/
def compareRoots (a b : JoinKey × Record) : Ordering :=
  (SortKey.compareAll plan.sorts.relationKeys (f.drivingRow plan driving a.1)
    (f.drivingRow plan driving b.1)).then (SortKey.compareAll plan.sorts.rootSorts a.2 b.2)

/-- All roots of the keys that satisfy the root's conditions. -/
def pairsOf (keys : List JoinKey) : List (JoinKey × Record) :=
  keys.flatMap fun key => (f.rootsWith plan driving key).map (key, ·)

/-- All matching roots under their keys, in order of discovery. -/
def matchingPairs : List (JoinKey × Record) :=
  f.pairsOf plan driving (keysOfFirst f plan driving narrowing (drivingRows f plan driving).length)

/-- All matching roots, sorted; ties stay in order of discovery. -/
def sortedPairs : List (JoinKey × Record) :=
  (f.matchingPairs plan driving narrowing).mergeSort fun a b =>
    (f.compareRoots plan driving a b).isLE

end Definitions

variable {f : Federation Collection} {plan : Plan f.schema.relations}
  {driving : RelationId f.schema.relations} {narrowing : List (RelationId f.schema.relations)}

/-! ## Pages -/

/-- The windows of a page hold all driving rows when both limits exceed their number. -/
theorem length_drivingRows_le_rowsIn (hlimit : plan.limit.toNat ≠ 0) {limits : Limits}
    (hmaxOffset : (drivingRows f plan driving).length < limits.maxOffset.toNat)
    (hmaxIterations : (drivingRows f plan driving).length < limits.maxIterations.toNat) :
    (drivingRows f plan driving).length ≤ rowsIn plan (windowBudget limits
      (Execution.target plan) (Discovery.start plan.limit limits.maxOffset).cursor) := by
  rw [windowBudget_eq hlimit, rowsIn_eq hlimit]
  rcases Nat.le_total (windowsFor (min (plan.offset.toNat + plan.limit.toNat)
    Word.greatest.toNat) plan.limit.toNat + limits.maxIterations.toNat)
      (windowsFor limits.maxOffset.toNat plan.limit.toNat) with h | h
  · rw [Nat.min_eq_left h]
    apply Nat.le_trans _ (Nat.le_mul_of_pos_right _ (Nat.pos_of_ne_zero hlimit))
    exact Nat.le_trans (Nat.le_of_lt hmaxIterations) (Nat.le_add_left ..)
  · rw [Nat.min_eq_right h]
    exact Nat.le_trans (Nat.le_of_lt hmaxOffset) (le_windowsFor_mul hlimit _)

/-- The driving rows that discovery remembers are the first ones of their keys. -/
theorem get?_ranks {n : Nat} {maxOffset : UInt64} {key : JoinKey}
    (hkey : key ∈ keysOfFirst f plan driving narrowing (rowsIn plan n)) :
    (after f plan driving narrowing maxOffset n).ranks.get? key =
      some (f.drivingRow plan driving key) := by
  obtain ⟨row, hrow, hjoin⟩ := Record.mem_joinKeys.1 (List.mem_filter.1 hkey).1
  have hranks : (after f plan driving narrowing maxOffset n).ranks.get? key =
      ((drivingRows f plan driving).take (rowsIn plan n)).find?
        (·.joinKey? (f.schema.relations.get driving).relationKeyField = some key) :=
    FirstRows.get?_add ..
  cases hfind : ((drivingRows f plan driving).take (rowsIn plan n)).find?
      (·.joinKey? (f.schema.relations.get driving).relationKeyField = some key) with
  | none => exact absurd hjoin (by simpa using List.find?_eq_none.1 hfind row hrow)
  | some first =>
    have hall : (drivingRows f plan driving).find?
        (·.joinKey? (f.schema.relations.get driving).relationKeyField = some key) = some first := by
      rw [← List.take_append_drop (rowsIn plan n) (drivingRows f plan driving),
        List.find?_append, hfind, Option.some_or]
    simp only [hranks, hfind, drivingRow, hall, Option.getD_some]

/-- Gathering ends with as many roots as the page needs, or with all. -/
theorem min_le_length_of_ends (hfit : f.FitsWords) (hlimit : plan.limit.toNat ≠ 0)
    {limits : Limits} (hmaxOffset : (drivingRows f plan driving).length < limits.maxOffset.toNat)
    (hmaxIterations : (drivingRows f plan driving).length < limits.maxIterations.toNat) {m : Nat}
    {g : Gathering} (h : Ends f plan driving narrowing limits.maxOffset (Execution.target plan) 0
      (windowBudget limits (Execution.target plan)
        (Discovery.start plan.limit limits.maxOffset).cursor) m g) :
    min (plan.offset.toNat + plan.limit.toNat) (f.discovered plan driving narrowing).length ≤
      (f.joinedRoots plan driving narrowing (rowsIn plan m)).length := by
  have hfew : (f.discovered plan driving narrowing).length < 18446744073709551616 :=
    length_joinedRoots_lt plan driving narrowing hfit _
  have hall : (drivingRows f plan driving).length ≤ rowsIn plan m →
      (f.joinedRoots plan driving narrowing (rowsIn plan m)).length =
        (f.discovered plan driving narrowing).length :=
    fun h => congrArg List.length (joinedRoots_of_length_le h (Nat.le_refl _))
  rcases h.stops with rfl | hexhausted | henough
  · rw [hall (length_drivingRows_le_rowsIn hlimit hmaxOffset hmaxIterations)]
    exact Nat.min_le_right ..
  · rw [hall (Nat.le_of_lt ((exhausted_after_iff m).1 hexhausted))]
    exact Nat.min_le_right ..
  · simp only [Execution.target, Word.toNat_addSat] at henough
    exact Nat.le_trans (Nat.le_min.2 ⟨Nat.min_le_left .., by omega⟩) henough

/-- For a page of one root gathering ends with no more roots than the page needs. -/
theorem length_le_of_ends (hone : plan.limit.toNat = 1) {maxOffset : UInt64} {last m : Nat}
    {g : Gathering}
    (h : Ends f plan driving narrowing maxOffset (Execution.target plan) 0 last m g) :
    (f.joinedRoots plan driving narrowing (rowsIn plan m)).length ≤ plan.offset.toNat + 1 := by
  cases m with
  | zero =>
    simp only [rowsIn, Nat.zero_mul, joinedRoots_zero]
    exact Nat.zero_le _
  | succ v =>
    -- one window less was not enough, and the last one has one row
    have hmore := mt Or.inr (h.goesOn v (Nat.zero_le v) (Nat.lt_succ_self v))
    simp only [Execution.target, Word.toNat_addSat, hone] at hmore
    have hnext := length_joinedRoots_add_le f plan driving narrowing (rowsIn plan v) 1
    have hlimit : plan.limit.toNat ≠ 0 := hone ▸ Nat.one_ne_zero
    simp only [rowsIn_succ, Page.atLeastOne_of_ne_zero hlimit, hone]
    omega

/-- The page shows a window of the first `count` discovered roots, with their ties broken. These
are as many as the window needs, or all; and for a window of one root they are no more. -/
structure ShowsDiscovered (f : Federation Collection) (plan : Plan f.schema.relations)
    (driving : RelationId f.schema.relations) (narrowing : List (RelationId f.schema.relations))
    (limit offset count : Nat) (ranks : FirstRows) (page : Page) : Prop where
  enough : min (offset + limit) (f.discovered plan driving narrowing).length ≤ count
  le_length : count ≤ (f.discovered plan driving narrowing).length
  le_of_one : limit = 1 → count ≤ offset + 1
  get?_ranks : ∀ a ∈ (f.discovered plan driving narrowing).take count,
    ranks.get? a.1 = some (f.drivingRow plan driving a.1)
  data : page.data.map (·.outside plan.attached) =
    ((((Ties.breakTies ranks plan.sorts.relationKeys plan.sorts.rootSorts
      ((f.discovered plan driving narrowing).take count)).map (·.2)).drop offset).take limit).map
        (·.outside plan.attached)

theorem answer_showsDiscovered (hfit : f.FitsWords) {r : Request} (hplan : f.plan r = .ok plan)
    (hstrategy : plan.strategy = .relationFirst driving narrowing)
    (hrelation : plan.sorts.relationSorts ≠ []) (hroot : plan.sorts.rootSorts ≠ [])
    (huniform : ∀ key ∈ plan.sorts.rootSorts, Uniform f.root.rows key.field)
    (hmaxOffset : (drivingRows f plan driving).length < f.limits.maxOffset.toNat)
    (hmaxIterations : (drivingRows f plan driving).length < f.limits.maxIterations.toNat) :
    ∃ count ranks page, f.answer r = .ok page ∧
      f.ShowsDiscovered plan driving narrowing plan.limit.toNat plan.offset.toNat count ranks
        page := by
  have hlimit := Plan.toNat_limit_ne_zero hplan
  obtain ⟨m, g, page, hends, hpage, hdata⟩ := answers_relationOrdered narrowing hfit
    (Plan.rootOrFilters_eq_nil hplan) (steadyRoots_of_uniform huniform driving) f.limits
  have htake : f.joinedRoots plan driving narrowing (rowsIn plan m) =
      (f.discovered plan driving narrowing).take
        (f.joinedRoots plan driving narrowing (rowsIn plan m)).length :=
    List.prefix_iff_eq_take.1 (joinedRoots_isPrefix_all _)
  refine ⟨(f.joinedRoots plan driving narrowing (rowsIn plan m)).length,
    (after f plan driving narrowing f.limits.maxOffset m).ranks, page, answer_of_plan hplan ?_,
    min_le_length_of_ends hfit hlimit hmaxOffset hmaxIterations hends,
    (joinedRoots_isPrefix_all _).length_le, fun hone => length_le_of_ends hone hends, ?_, ?_⟩
  · unfold pageOfPlan
    rw [hstrategy]
    simp only [relationFirst, List.isEmpty_eq_false_iff.2 hrelation, Bool.false_and]
    exact hpage
  · rw [← htake]
    intro a ha
    exact get?_ranks (mem_rootsOf.1 ha).1
  · rw [← htake]
    simp only [rootsInOrder, List.isEmpty_eq_false_iff.2 hroot] at hdata
    exact hdata

/-! ## Sorted pairs -/

theorem mem_pairsOf {keys : List JoinKey} {a : JoinKey × Record} :
    a ∈ f.pairsOf plan driving keys ↔ a.1 ∈ keys ∧ a.2 ∈ f.rootsWith plan driving a.1 := by
  obtain ⟨key, root⟩ := a
  simp only [pairsOf, List.mem_flatMap, List.mem_map, Prod.mk.injEq]
  constructor
  · rintro ⟨key, hkey, root, hroot, rfl, rfl⟩
    exact ⟨hkey, hroot⟩
  · exact fun ⟨hkey, hroot⟩ => ⟨key, hkey, root, hroot, rfl, rfl⟩

/-- Discovery keeps no more than one of the roots of a key. -/
theorem rootsOf_sublist_pairsOf (keys : List JoinKey) :
    (f.rootsOf plan driving keys).Sublist (f.pairsOf plan driving keys) := by
  induction keys with
  | nil => exact List.Sublist.refl _
  | cons key rest ih =>
    have hpairs : f.pairsOf plan driving (key :: rest) =
        (f.rootsWith plan driving key).map (key, ·) ++ f.pairsOf plan driving rest :=
      List.flatMap_cons
    rw [hpairs]
    cases hfirst : f.firstRoot? plan driving key with
    | none =>
      have hroots : f.rootsOf plan driving (key :: rest) = f.rootsOf plan driving rest := by
        simp only [rootsOf, List.filterMap_cons, hfirst]
        rfl
      rw [hroots]
      exact ih.trans (List.sublist_append_right ..)
    | some root =>
      have hroots : f.rootsOf plan driving (key :: rest) =
          [(key, root)] ++ f.rootsOf plan driving rest := by
        simp only [rootsOf, List.filterMap_cons, hfirst]
        rfl
      rw [hroots]
      apply List.Sublist.append _ ih
      exact List.singleton_sublist.2 (List.mem_map_of_mem (mem_rootsWith_of_firstRoot? hfirst))

/-- The sorted fields of the root and of the driving relation hold values of one type. -/
structure UniformSorts (f : Federation Collection) (plan : Plan f.schema.relations)
    (driving : RelationId f.schema.relations) : Prop where
  root : ∀ key ∈ plan.sorts.rootSorts, Uniform f.root.rows key.field
  relation : ∀ key ∈ plan.sorts.relationKeys,
    Uniform (f.provider (.relation driving)).rows key.field

theorem drivingRow_mem (hfit : f.FitsWords) (key : JoinKey) :
    f.drivingRow plan driving key ∈ (f.provider (.relation driving)).rows ∨
      f.drivingRow plan driving key = .empty := by
  unfold drivingRow
  cases hfind : (drivingRows f plan driving).find?
      (·.joinKey? (f.schema.relations.get driving).relationKeyField = some key) with
  | none => exact .inr rfl
  | some row =>
    have hmem := List.mem_of_find?_eq_some hfind
    rw [drivingRows_eq_select hfit, Collection.mem_select] at hmem
    exact .inl hmem.1

theorem uniform_drivingRow (hfit : f.FitsWords) (huniform : f.UniformSorts plan driving)
    (keys : List JoinKey) {key : SortKey} (hkey : key ∈ plan.sorts.relationKeys) :
    Uniform (keys.map (f.drivingRow plan driving)) key.field := by
  apply (huniform.relation key hkey).mono
  intro row hrow
  obtain ⟨joinKey, -, rfl⟩ := List.mem_map.1 hrow
  rcases drivingRow_mem hfit joinKey with hmem | hempty
  · exact .inl hmem
  · rw [hempty]
    exact .inr rfl

/-- On the matching roots the claimed order is a total preorder. -/
theorem exists_compareRoots (hfit : f.FitsWords) (huniform : f.UniformSorts plan driving)
    (keys : List JoinKey) :
    ∃ cmp : JoinKey × Record → JoinKey × Record → Ordering, Std.TransCmp cmp ∧
      ∀ a ∈ f.pairsOf plan driving keys, ∀ b ∈ f.pairsOf plan driving keys,
        f.compareRoots plan driving a b = cmp a b := by
  obtain ⟨rows, hrows, hrowsEq⟩ := SortKey.exists_compareAll
    fun key hkey => uniform_drivingRow hfit huniform keys hkey
  obtain ⟨roots, hroots, hrootsEq⟩ := SortKey.exists_compareAll huniform.root
  have hfirst := Sorting.transCmp_comap hrows
    fun a : JoinKey × Record => f.drivingRow plan driving a.1
  have hsecond := Sorting.transCmp_comap hroots fun a : JoinKey × Record => a.2
  refine ⟨compareLex
    (fun a b => rows (f.drivingRow plan driving a.1) (f.drivingRow plan driving b.1))
    (fun a b => roots a.2 b.2), inferInstance, ?_⟩
  intro a ha b hb
  have hpart : ∀ c ∈ f.pairsOf plan driving keys,
      f.drivingRow plan driving c.1 ∈ keys.map (f.drivingRow plan driving) ∧
        c.2 ∈ f.root.rows := by
    intro c hc
    obtain ⟨hkey, hroot⟩ := mem_pairsOf.1 hc
    exact ⟨List.mem_map_of_mem hkey, (List.mem_filter.1 hroot).1⟩
  unfold compareRoots
  rw [hrowsEq _ (hpart a ha).1 _ (hpart b hb).1, hrootsEq _ (hpart a ha).2 _ (hpart b hb).2]
  rfl

theorem pairwise_sortedPairs (hfit : f.FitsWords) (huniform : f.UniformSorts plan driving) :
    (f.sortedPairs plan driving narrowing).Pairwise fun a b =>
      (f.compareRoots plan driving a b).isLE = true := by
  obtain ⟨cmp, hcmp, hcompare⟩ := exists_compareRoots hfit huniform
    (keysOfFirst f plan driving narrowing (drivingRows f plan driving).length)
  have hsort : f.sortedPairs plan driving narrowing =
      (f.matchingPairs plan driving narrowing).mergeSort fun a b => (cmp a b).isLE := by
    apply Sorting.mergeSort_congr
    intro a ha b hb
    rw [hcompare a ha b hb]
  rw [hsort]
  apply (Sorting.pairwise_mergeSort_isLE _).imp_of_mem
  intro a b ha hb hab
  rw [hcompare a (List.mem_mergeSort.1 ha) b (List.mem_mergeSort.1 hb)]
  exact hab

/-! ## When the pages fit together -/

/-- Every page of the request is a window of the sorted roots. -/
def ShowsWindows (f : Federation Collection) (r : Request) (plan : Plan f.schema.relations)
    (driving : RelationId f.schema.relations) (narrowing : List (RelationId f.schema.relations)) :
    Prop :=
  ∀ limit offset : UInt64, limit.toNat ≠ 0 →
    ∃ page, f.answer { r with offset := some offset, limit := some limit } = .ok page ∧
      page.data.map (·.outside plan.attached) =
        ((((f.sortedPairs plan driving narrowing).map (·.2)).drop offset.toNat).take
          limit.toNat).map (·.outside plan.attached)

/-- The pages of a request that is sorted by a relation, with root sorts for ties. -/
structure TieBroken (f : Federation Collection) (r : Request) (plan : Plan f.schema.relations)
    (driving : RelationId f.schema.relations) (narrowing : List (RelationId f.schema.relations)) :
    Prop where
  fits : f.FitsWords
  plan_eq : f.plan r = .ok plan
  strategy_eq : plan.strategy = .relationFirst driving narrowing
  relationSorts : plan.sorts.relationSorts ≠ []
  rootSorts : plan.sorts.rootSorts ≠ []
  uniform : f.UniformSorts plan driving
  maxOffset : (drivingRows f plan driving).length < f.limits.maxOffset.toNat
  maxIterations : (drivingRows f plan driving).length < f.limits.maxIterations.toNat

theorem TieBroken.answer_at {r : Request} (h : f.TieBroken r plan driving narrowing)
    {limit : UInt64} (hlimit : limit.toNat ≠ 0) (offset : UInt64) :
    ∃ count ranks page,
      f.answer { r with offset := some offset, limit := some limit } = .ok page ∧
        f.ShowsDiscovered plan driving narrowing limit.toNat offset.toNat count ranks page := by
  -- the plan differs from that of the request in its window only
  obtain ⟨count, ranks, page, hanswer, hpage⟩ := answer_showsDiscovered h.fits
    (Plan.make_windowed h.plan_eq r.page (some offset) hlimit) h.strategy_eq h.relationSorts
    h.rootSorts h.uniform.root h.maxOffset h.maxIterations
  exact ⟨count, ranks, page, hanswer, hpage.enough, hpage.le_length, hpage.le_of_one,
    hpage.get?_ranks, hpage.data⟩

/-- Roots that are discovered in their order are shown in it. -/
theorem TieBroken.showsWindows {r : Request} (h : f.TieBroken r plan driving narrowing)
    (horder : f.discovered plan driving narrowing = f.sortedPairs plan driving narrowing) :
    f.ShowsWindows r plan driving narrowing := by
  intro limit offset hlimit
  obtain ⟨count, ranks, page, hanswer, hpage⟩ := h.answer_at hlimit offset
  refine ⟨page, hanswer, hpage.data.trans (congrArg _ ?_)⟩
  have hbroken : Ties.breakTies ranks plan.sorts.relationKeys plan.sorts.rootSorts
      ((f.discovered plan driving narrowing).take count) =
        (f.discovered plan driving narrowing).take count := by
    apply Ties.breakTies_eq_self hpage.get?_ranks
    · apply SortKey.transitiveOn_compareAll
      intro key hkey
      have hrows := uniform_drivingRow h.fits h.uniform
        (((f.discovered plan driving narrowing).take count).map (·.1)) hkey
      rw [List.map_map] at hrows
      exact hrows.transitiveOn
    · rw [horder]
      exact (pairwise_sortedPairs h.fits h.uniform).sublist (List.take_sublist ..)
  rw [hbroken, ← horder]
  apply Paging.window_eq_of_isPrefix ((List.take_prefix _ _).map _)
  have henough := hpage.enough
  simp only [List.length_map, List.length_take]
  omega

theorem nodup_keys_discovered :
    ((f.discovered plan driving narrowing).map (·.1)).Nodup := nodup_keys_joinedRoots _

theorem joinKey?_of_mem_matchingPairs {a : JoinKey × Record}
    (ha : a ∈ f.matchingPairs plan driving narrowing) :
    a.2.joinKey? (rootKeyField driving) = some a.1 := by
  have hroot := (List.mem_filter.1 (mem_pairsOf.1 ha).2).2
  simp only [Bool.and_eq_true, decide_eq_true_iff] at hroot
  exact hroot.2

/-- A page of one root shows what the sorted roots have at its place, and also what the roots
discovered up to it have there once their ties are broken. -/
theorem TieBroken.getElem?_brokenTies {r : Request} (h : f.TieBroken r plan driving narrowing)
    (hshows : f.ShowsWindows r plan driving narrowing) {n : Nat}
    (hn : n ≤ (f.discovered plan driving narrowing).length) :
    ∃ broken : List (JoinKey × Record),
      broken.Perm ((f.discovered plan driving narrowing).take (n + 1)) ∧
      (f.sortedPairs plan driving narrowing)[n]?.map (·.2.outside plan.attached) =
        broken[n]?.map (·.2.outside plan.attached) := by
  have hword : (f.discovered plan driving narrowing).length < 18446744073709551616 :=
    length_joinedRoots_lt plan driving narrowing h.fits _
  have hoffset : (UInt64.ofNat n).toNat = n := by
    rw [UInt64.toNat_ofNat']
    omega
  have hone : (1 : UInt64).toNat = 1 := rfl
  obtain ⟨page, hanswer, hdata⟩ := hshows 1 (UInt64.ofNat n) Nat.one_ne_zero
  obtain ⟨count, ranks, other, hother, hpage⟩ :=
    h.answer_at (by decide : (1 : UInt64).toNat ≠ 0) (UInt64.ofNat n)
  cases hanswer.symm.trans hother
  have htake : (f.discovered plan driving narrowing).take count =
      (f.discovered plan driving narrowing).take (n + 1) := by
    have hleast := hpage.enough
    have hmost := hpage.le_of_one hone
    rw [hoffset] at hleast hmost
    rw [hone] at hleast
    rw [List.take_eq_take_iff]
    omega
  have hbroken := hpage.data
  rw [htake] at hbroken
  refine ⟨_, Ties.breakTies_perm ranks plan.sorts.relationKeys plan.sorts.rootSorts _, ?_⟩
  have hhead := congrArg List.head? (hdata.symm.trans hbroken)
  simpa only [List.head?_map, List.head?_take, List.head?_drop, List.getElem?_map, hoffset, hone,
    Nat.one_ne_zero, if_false, Option.map_map, Function.comp_def] using hhead

/-- No more roots match than are discovered: the page behind the last of them is empty. -/
theorem TieBroken.length_sortedPairs_le {r : Request} (h : f.TieBroken r plan driving narrowing)
    (hshows : f.ShowsWindows r plan driving narrowing) :
    (f.sortedPairs plan driving narrowing).length ≤
      (f.discovered plan driving narrowing).length := by
  obtain ⟨broken, hperm, hsame⟩ := h.getElem?_brokenTies hshows (Nat.le_refl _)
  have hlength : broken.length ≤ (f.discovered plan driving narrowing).length := by
    rw [hperm.length_eq]
    exact List.length_take_le' ..
  simp only [List.getElem?_eq_none hlength, Option.map_none, Option.map_eq_none_iff] at hsame
  exact List.getElem?_eq_none_iff.1 hsame

/-- Where the pages are windows of the sorted roots, these are the discovered ones. -/
theorem TieBroken.discovered_eq_matchingPairs {r : Request}
    (h : f.TieBroken r plan driving narrowing) (hshows : f.ShowsWindows r plan driving narrowing) :
    f.discovered plan driving narrowing = f.matchingPairs plan driving narrowing := by
  have hlength : (f.matchingPairs plan driving narrowing).length ≤
      (f.discovered plan driving narrowing).length := by
    have hsort : (f.sortedPairs plan driving narrowing).length =
        (f.matchingPairs plan driving narrowing).length := List.length_mergeSort _
    exact Nat.le_trans (Nat.le_of_eq hsort.symm) (h.length_sortedPairs_le hshows)
  exact (rootsOf_sublist_pairsOf _).eq_of_length_le hlength

/-- With pages of one root, the root shown at a place is among those discovered up to it. -/
theorem TieBroken.getElem?_sortedPairs {r : Request} (h : f.TieBroken r plan driving narrowing)
    (hkey : rootKeyField driving ∉ plan.attached)
    (hshows : f.ShowsWindows r plan driving narrowing) {n : Nat}
    (hn : n < (f.discovered plan driving narrowing).length) :
    ∃ a, (f.sortedPairs plan driving narrowing)[n]? = some a ∧
      a ∈ (f.discovered plan driving narrowing).take (n + 1) := by
  obtain ⟨broken, hperm, hsame⟩ := h.getElem?_brokenTies hshows (Nat.le_of_lt hn)
  have hlength : n < broken.length := by
    simp only [hperm.length_eq, List.length_take]
    omega
  simp only [List.getElem?_eq_getElem hlength, Option.map_some, Option.map_eq_some_iff] at hsame
  obtain ⟨a, ha, hout⟩ := hsame
  have hall := h.discovered_eq_matchingPairs hshows
  have hshown := hperm.mem_iff.1 (List.getElem_mem hlength)
  have hbroken := List.mem_of_mem_take hshown
  have hsorted : a ∈ f.discovered plan driving narrowing := by
    rw [hall]
    exact List.mem_mergeSort.1 (List.mem_of_getElem? ha)
  -- fields that are not attached tell the key, and the key tells the root
  have hkeys : a.2.joinKey? (rootKeyField driving) =
      broken[n].2.joinKey? (rootKeyField driving) := by
    rw [Record.joinKey?_of_outside hkey, hout, ← Record.joinKey?_of_outside hkey]
  rw [joinKey?_of_mem_matchingPairs (hall ▸ hsorted),
    joinKey?_of_mem_matchingPairs (hall ▸ hbroken)] at hkeys
  have hpair := List.inj_on_of_nodup_map nodup_keys_discovered hsorted hbroken
    (Option.some.inj hkeys)
  exact ⟨a, ha, hpair ▸ hshown⟩

/-- Ties are broken among the roots discovered for a page, so the pages are windows of the sorted
roots if discovery finds the roots in that order, and only then, as long as attaching relations
leaves the root's key alone. -/
theorem showsWindows_exactly {r : Request} (h : f.TieBroken r plan driving narrowing) :
    (f.discovered plan driving narrowing = f.sortedPairs plan driving narrowing →
      f.ShowsWindows r plan driving narrowing) ∧
    (rootKeyField driving ∉ plan.attached → f.ShowsWindows r plan driving narrowing →
      f.discovered plan driving narrowing = f.sortedPairs plan driving narrowing) := by
  refine ⟨h.showsWindows, fun hkey hshows => ?_⟩
  apply Paging.eq_of_getElem?_mem_take
  · rw [h.discovered_eq_matchingPairs hshows]
    exact List.mergeSort_perm ..
  · exact List.Nodup.of_map _ nodup_keys_discovered
  · intro n hn
    exact h.getElem?_sortedPairs hkey hshows hn

end Federation

namespace Shop

open Federation

/-- An order of each customer at one price, stored in the order of the customers or against it. -/
def tiedOrders (against : Bool) : List Record :=
  if against then [order 2 7, order 1 7] else [order 1 7, order 2 7]

def tied (against : Bool) : Federation Collection :=
  federation anOrder ⟨10, 100, 10, true⟩ [customer 1 0, customer 2 0] (tiedOrders against)

/-- Customers by the price of their order, and where prices tie by their number. -/
def byPrice : Request :=
  { Request.empty with sorts := [⟨"price", .ascending, some "order"⟩, ⟨"id", .ascending, none⟩] }

def byPricePlan (against : Bool) : Plan (tied against).schema.relations where
  routing := .ofRequest _ byPrice
  sorts := ⟨[(theRelation, ⟨"price", .ascending, none⟩)], [⟨"id", .ascending, none⟩]⟩
  strategy := .relationFirst theRelation []
  hydrated := [theRelation]
  limit := 10
  offset := 0

theorem length_drivingRows_tied (against : Bool) :
    (drivingRows (tied against) (byPricePlan against) (0 : Fin 1)).length = 2 := by
  cases against <;> cbv

theorem uniformSorts_tied (against : Bool) :
    (tied against).UniformSorts (byPricePlan against) (0 : Fin 1) where
  root := by
    intro key hkey
    obtain rfl := List.mem_singleton.1 hkey
    refine .inr (.inl fun row hrow => .inr ?_)
    rcases List.mem_cons.1 hrow with rfl | hrow
    · exact ⟨1, by cbv⟩
    · obtain rfl := List.mem_singleton.1 hrow
      exact ⟨2, by cbv⟩
  relation := by
    intro key hkey
    obtain rfl := List.mem_singleton.1 hkey
    refine .inr (.inl fun row hrow => .inr ⟨7, ?_⟩)
    have hrows : row = order 1 7 ∨ row = order 2 7 := by
      have hmem : row ∈ tiedOrders against := hrow
      cases against with
      | false => simpa [tiedOrders] using hmem
      | true => simpa [tiedOrders, or_comm] using hmem
    rcases hrows with rfl | rfl <;> cbv

theorem tieBroken_tied (against : Bool) :
    (tied against).TieBroken byPrice (byPricePlan against) (0 : Fin 1) [] where
  fits := fitsWords (by decide) (by cases against <;> decide)
  plan_eq := rfl
  strategy_eq := rfl
  relationSorts := List.cons_ne_nil _ _
  rootSorts := List.cons_ne_nil _ _
  uniform := uniformSorts_tied against
  maxOffset := by
    rw [length_drivingRows_tied]
    exact (by decide : 2 < 100)
  maxIterations := by
    rw [length_drivingRows_tied]
    exact (by decide : 2 < 10)

/-- Customers that are stored in the order of their numbers need no sorting. -/
theorem showsWindows_tied :
    (tied false).ShowsWindows byPrice (byPricePlan false) (0 : Fin 1) [] := by
  apply (showsWindows_exactly (tieBroken_tied false)).1
  have hdiscovered : (tied false).discovered (byPricePlan false) (0 : Fin 1) [] =
      [(.int 1, customer 1 0), (.int 2, customer 2 0)] := by cbv
  have hsorted : (tied false).sortedPairs (byPricePlan false) (0 : Fin 1) [] =
      [(.int 1, customer 1 0), (.int 2, customer 2 0)] := by cbv
  rw [hdiscovered, hsorted]

/-- The second customer is discovered first, and is the first page of one by itself, though the
first customer goes before it. -/
theorem not_forall_showsWindows : ¬ ∀ (f : Federation Collection) (r : Request)
    (plan : Plan f.schema.relations) (driving : RelationId f.schema.relations)
    (narrowing : List (RelationId f.schema.relations)),
    f.TieBroken r plan driving narrowing → f.ShowsWindows r plan driving narrowing := by
  intro h
  obtain ⟨page, hanswer, hdata⟩ := h (tied true) byPrice (byPricePlan true) (0 : Fin 1) []
    (tieBroken_tied true) 1 0 (by decide)
  have hshown : ((tied true).answer { byPrice with offset := some 0, limit := some 1 }).map
      (fun page => page.data.map (·.joinKey? "id")) = .ok [some (.int 2)] := by cbv
  have hsorted : (tied true).sortedPairs (byPricePlan true) (0 : Fin 1) [] =
      [(.int 1, customer 1 0), (.int 2, customer 2 0)] := by cbv
  have hfirst : (customer 1 0).joinKey? "id" = some (.int 1) := by cbv
  have hid : "id" ∉ (byPricePlan true).attached := by decide
  have hkeys := Record.map_joinKey?_eq_of_outside hdata hid
  rw [hsorted] at hkeys
  rw [hanswer] at hshown
  have hboth := (Except.ok.inj hshown).symm.trans hkeys
  simp [hfirst] at hboth

end Shop

end FederatedJoin
