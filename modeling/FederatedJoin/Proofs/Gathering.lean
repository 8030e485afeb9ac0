-- SUMMARY: Gathering stops at the first window after which enough roots are known.
import FederatedJoin.Proofs.Roots
import FederatedJoin.Proofs.Windows
import Mathlib.Data.List.Basic

/-!
# Gathering

To fill a page, windows are read and roots are fetched in turns. What has been
found at any time are the roots of the keys fetched so far, and the number of
keys to wait for is never more than those and one for each root that is missing.
Hence no window is read once enough roots can be known: gathering stops after
the first window that suffices, or at the end of the driving rows, or when no
window is left.
-/

namespace FederatedJoin

/-! ## Keys with roots -/

namespace Federation

variable (f : Federation Collection) (plan : Plan f.schema.relations)
  (driving : RelationId f.schema.relations)

/-- The keys that have a root, each with its first one. -/
def rootsOf (keys : List JoinKey) : List (JoinKey × Record) :=
  keys.filterMap fun key => (f.firstRoot? plan driving key).map (key, ·)

/-- The keys of the first `n` driving rows that have a root, each with its first one. -/
def joinedRoots (narrowing : List (RelationId f.schema.relations)) (n : Nat) :
    List (JoinKey × Record) :=
  f.rootsOf plan driving (keysOfFirst f plan driving narrowing n)

variable {f plan driving} {narrowing : List (RelationId f.schema.relations)}

theorem mem_rootsOf {keys : List JoinKey} {a : JoinKey × Record} :
    a ∈ f.rootsOf plan driving keys ↔
      a.1 ∈ keys ∧ f.firstRoot? plan driving a.1 = some a.2 := by
  obtain ⟨key, root⟩ := a
  simp only [rootsOf, List.mem_filterMap, Option.map_eq_some_iff, Prod.mk.injEq]
  constructor
  · rintro ⟨key, hkey, root, hroot, rfl, rfl⟩
    exact ⟨hkey, hroot⟩
  · exact fun ⟨hkey, hroot⟩ => ⟨key, hkey, root, hroot, rfl, rfl⟩

/-- The keys under which something is found, whatever is found there. -/
theorem map_fst_found (find : JoinKey → Option Record) (keys : List JoinKey) :
    (keys.filterMap fun key => (find key).map (key, ·)).map (·.1) =
      keys.filter fun key => (find key).isSome := by
  rw [List.map_filterMap, ← List.filterMap_eq_filter]
  apply List.filterMap_congr
  intro key _
  cases h : find key <;> simp [Option.guard, h]

theorem map_fst_rootsOf (keys : List JoinKey) : (f.rootsOf plan driving keys).map (·.1) =
    keys.filter fun key => (f.firstRoot? plan driving key).isSome := map_fst_found _ keys

variable (f plan driving) in
theorem length_rootsOf_le (keys : List JoinKey) :
    (f.rootsOf plan driving keys).length ≤ keys.length := List.length_filterMap_le ..

theorem nodup_keys_joinedRoots (n : Nat) :
    ((f.joinedRoots plan driving narrowing n).map (·.1)).Nodup := by
  simp only [joinedRoots, map_fst_rootsOf]
  exact (nodup_keysOfFirst driving narrowing n).filter _

theorem joinedRoots_mono {m n : Nat} (h : m ≤ n) :
    f.joinedRoots plan driving narrowing m <+: f.joinedRoots plan driving narrowing n :=
  (keysOfFirst_mono f plan driving narrowing h).filterMap _

variable (plan driving narrowing) in
theorem length_joinedRoots_lt (hfit : f.FitsWords) (n : Nat) :
    (f.joinedRoots plan driving narrowing n).length < 18446744073709551616 := by
  have hkeys := length_keysOfFirst_le f plan driving narrowing n
  have hroots := length_rootsOf_le f plan driving (keysOfFirst f plan driving narrowing n)
  exact Nat.lt_of_le_of_lt (Nat.le_trans hroots hkeys) (length_drivingRows_lt hfit _)

variable (f plan driving narrowing) in
/-- Every row adds at most one root. -/
theorem length_joinedRoots_add_le (n k : Nat) :
    (f.joinedRoots plan driving narrowing (n + k)).length ≤
      (f.joinedRoots plan driving narrowing n).length + k := by
  obtain ⟨extra, hkeys, hextra⟩ := Record.exists_joinKeys_append
    ((drivingRows f plan driving).take n) (((drivingRows f plan driving).drop n).take k)
    (f.schema.relations.get driving).relationKeyField
  have hmore : (extra.filter fun key => narrowing.all (hasRow f plan key)).length ≤ k :=
    Nat.le_trans (List.length_filter_le ..) (Nat.le_trans hextra (List.length_take_le ..))
  rw [joinedRoots, keysOfFirst, List.take_add, hkeys, List.filter_append, rootsOf,
    List.filterMap_append, List.length_append]
  exact Nat.add_le_add_left (Nat.le_trans (length_rootsOf_le f plan driving _) hmore) _

theorem joinedRoots_of_length_le {m n : Nat} (hm : (drivingRows f plan driving).length ≤ m)
    (hn : (drivingRows f plan driving).length ≤ n) :
    f.joinedRoots plan driving narrowing m = f.joinedRoots plan driving narrowing n := by
  simp only [joinedRoots, keysOfFirst_of_length_le driving narrowing hm hn]

theorem joinedRoots_zero : f.joinedRoots plan driving narrowing 0 = [] := by
  simp only [joinedRoots, keysOfFirst, List.take_zero]
  rfl

theorem joinedRoots_isPrefix_all (n : Nat) : f.joinedRoots plan driving narrowing n <+:
    f.joinedRoots plan driving narrowing (drivingRows f plan driving).length :=
  (keysOfFirst_isPrefix_all driving narrowing n).filterMap _

end Federation

namespace Execution

open Federation Discovery

variable (f : Federation Collection) (plan : Plan f.schema.relations)
  (driving : RelationId f.schema.relations) (narrowing : List (RelationId f.schema.relations))
  (maxOffset : UInt64)

/-! ## The invariant -/

/-- What is known after `n` windows: the found roots are those of the fetched keys. -/
structure Gathered (n : Nat) (g : Gathering) : Prop where
  discovery : g.discovery = after f plan driving narrowing maxOffset n
  fetched_le : g.fetched ≤ g.discovery.keys.length
  nodup : (g.found.map (·.1)).Nodup
  get?_found : ∀ key, g.found.get? key =
    if key ∈ g.discovery.keys.take g.fetched then f.firstRoot? plan driving key else none

variable {f plan driving narrowing maxOffset} {n : Nat} {g : Gathering}

variable (f plan driving narrowing maxOffset) in
theorem Gathered.start :
    Gathered f plan driving narrowing maxOffset 0 ⟨.start plan.limit maxOffset, [], 0⟩ where
  discovery := after_zero.symm
  fetched_le := Nat.zero_le _
  nodup := List.nodup_nil
  get?_found := fun key => by simp [FirstRows.get?]

theorem Gathered.keys_eq (hg : Gathered f plan driving narrowing maxOffset n g) :
    g.discovery.keys = keysOfFirst f plan driving narrowing (rowsIn plan n) := by
  rw [hg.discovery]
  rfl

/-- One more window leaves what was found as it is. -/
theorem Gathered.next (hg : Gathered f plan driving narrowing maxOffset n g) :
    Gathered f plan driving narrowing maxOffset (n + 1)
      { g with discovery := after f plan driving narrowing maxOffset (n + 1) } := by
  obtain ⟨more, hmore⟩ := keysOfFirst_mono f plan driving narrowing
    (rowsIn_le_rowsIn plan (Nat.le_succ n))
  have hkeys : (after f plan driving narrowing maxOffset (n + 1)).keys =
      g.discovery.keys ++ more := by
    rw [hg.keys_eq, hmore]
    rfl
  refine ⟨rfl, ?_, hg.nodup, ?_⟩
  · simp only [hkeys, List.length_append]
    exact Nat.le_trans hg.fetched_le (Nat.le_add_right ..)
  · simp only [hkeys, List.take_append_of_le_length hg.fetched_le]
    exact hg.get?_found

/-- As many roots are found as the fetched keys have. -/
theorem Gathered.length_found (hg : Gathered f plan driving narrowing maxOffset n g) :
    g.found.length =
      (f.rootsOf plan driving (g.discovery.keys.take g.fetched)).length := by
  have hkeys : (g.discovery.keys.take g.fetched).Nodup := by
    rw [hg.keys_eq]
    exact (nodup_keysOfFirst driving narrowing _).sublist (List.take_sublist ..)
  have hperm : (g.found.map (·.1)).Perm
      ((f.rootsOf plan driving (g.discovery.keys.take g.fetched)).map (·.1)) := by
    rw [map_fst_rootsOf]
    apply (List.perm_ext_iff_of_nodup hg.nodup (hkeys.filter _)).2
    intro key
    simp only [FirstRows.mem_keys_iff, hg.get?_found, List.mem_filter]
    split <;> simp [*]
  simpa using hperm.length_eq

/-- The keys that were not fetched yet can add at most one root each. -/
theorem Gathered.length_joinedRoots_le (hg : Gathered f plan driving narrowing maxOffset n g) :
    (f.joinedRoots plan driving narrowing (rowsIn plan n)).length ≤
      g.found.length + (g.discovery.keys.length - g.fetched) := by
  have hsplit : f.joinedRoots plan driving narrowing (rowsIn plan n) =
      f.rootsOf plan driving (g.discovery.keys.take g.fetched) ++
        f.rootsOf plan driving (g.discovery.keys.drop g.fetched) := by
    rw [joinedRoots, ← hg.keys_eq, rootsOf, rootsOf, rootsOf, ← List.filterMap_append,
      List.take_append_drop]
  have hrest := length_rootsOf_le f plan driving
    (g.discovery.keys.drop g.fetched)
  rw [List.length_drop] at hrest
  simp only [hsplit, List.length_append, hg.length_found]
  exact Nat.add_le_add_left hrest _

theorem Gathered.length_found_of_settled (hg : Gathered f plan driving narrowing maxOffset n g)
    (hall : g.fetched = g.discovery.keys.length) :
    g.found.length = (f.joinedRoots plan driving narrowing (rowsIn plan n)).length := by
  simp only [hg.length_found, hall, List.take_length, hg.keys_eq]
  rfl

/-! ## Steps -/

/-- Fetching what is pending completes the roots of the known keys. -/
theorem answers_settle (hfit : f.FitsWords) (hor : plan.routing.rootOrFilters = [])
    (hsteady : f.SteadyRoots plan driving)
    (hg : Gathered f plan driving narrowing maxOffset n g) :
    ∃ g', f.Answers (settle plan driving g) g' ∧
      Gathered f plan driving narrowing maxOffset n g' ∧
      g'.fetched = g'.discovery.keys.length := by
  unfold settle
  split
  · next hpending =>
    have hle := List.drop_eq_nil_iff.1 hpending
    exact ⟨g, answers_pure g, hg, Nat.le_antisymm hg.fetched_le hle⟩
  · next pending hsome =>
    refine ⟨_, (answers_getMany _ _).bind (answers_pure _),
      ⟨hg.discovery, Nat.le_refl _, FirstRows.nodup_keys_add .., ?_⟩, rfl⟩
    · intro key
      have hdata :=
        data_getMany_rootRequest hfit hor driving (g.discovery.keys.drop g.fetched)
      have hsplit : key ∈ g.discovery.keys ↔
          key ∈ g.discovery.keys.take g.fetched ∨ key ∈ g.discovery.keys.drop g.fetched := by
        rw [← List.mem_append, List.take_append_drop]
      rw [FirstRows.get?_add, hg.get?_found, hdata, hsteady, List.take_length]
      by_cases htake : key ∈ g.discovery.keys.take g.fetched <;>
        by_cases hdrop : key ∈ g.discovery.keys.drop g.fetched <;> simp [hsplit, htake, hdrop]

/-! ## The loop -/

variable (f plan driving narrowing maxOffset) in
/-- Whether after `n` windows the rows have ended or so many roots are known. -/
def Enough (target n : Nat) : Prop :=
  (after f plan driving narrowing maxOffset n).exhausted = true ∨
    target ≤ (f.joinedRoots plan driving narrowing (rowsIn plan n)).length

variable (f plan driving narrowing maxOffset) in
/-- How gathering goes on from `n` windows: it ends with the first that are enough, or with
the last that are left. -/
structure Ends (target n last m : Nat) (g : Gathering) : Prop where
  le : n ≤ m
  le_last : m ≤ last
  gathered : Gathered f plan driving narrowing maxOffset m g
  settled : g.fetched = g.discovery.keys.length
  stops : m = last ∨ Enough f plan driving narrowing maxOffset target m
  goesOn : ∀ v, n ≤ v → v < m → ¬ Enough f plan driving narrowing maxOffset target v

variable {target last m : Nat}

theorem Ends.of_next (hmore : ¬ Enough f plan driving narrowing maxOffset target n)
    (h : Ends f plan driving narrowing maxOffset target (n + 1) last m g) :
    Ends f plan driving narrowing maxOffset target n last m g := by
  refine { h with le := Nat.le_of_succ_le h.le, goesOn := fun v hv hvm => ?_ }
  rcases Nat.eq_or_lt_of_le hv with rfl | hv
  · exact hmore
  · exact h.goesOn v hv hvm

/-- However many keys it waits for first, gathering stops as soon as the windows are enough. -/
theorem answers_gather (hfit : f.FitsWords) (hor : plan.routing.rootOrFilters = [])
    (hsteady : f.SteadyRoots plan driving) (target : Nat) {left : Nat} (wanted : Nat)
    (hg : Gathered f plan driving narrowing maxOffset n g)
    (hwanted : wanted ≤ g.fetched + (target - g.found.length))
    (hleft : n + left ≤ (Discovery.start plan.limit maxOffset).cursor.windowsLeft) :
    ∃ m g', f.Answers (gather plan driving narrowing target left wanted g) g' ∧
      Ends f plan driving narrowing maxOffset target n (n + left) m g' := by
  induction left generalizing n wanted g with
  | zero =>
    obtain ⟨g', hanswers, hg', hall⟩ := answers_settle hfit hor hsteady hg
    exact ⟨n, g', hanswers, Nat.le_refl n, Nat.le_refl n, hg', hall, .inl rfl, by omega⟩
  | succ left ih =>
    have hread := answers_readWindow plan driving narrowing hfit maxOffset
      (rowsIn_lt_of_lt_windowsLeft (Nat.lt_of_lt_of_le (by omega : n < n + (left + 1)) hleft))
    rw [← Nat.add_assoc, Nat.add_right_comm] at hleft ⊢
    unfold gather
    split
    · next hshort =>
      -- fewer keys than are waited for cannot have enough roots
      simp only [Bool.and_eq_true, decide_eq_true_iff, Bool.not_eq_true', hg.discovery] at hshort
      have hmore : ¬ Enough f plan driving narrowing maxOffset target n := by
        have hle := hg.length_joinedRoots_le
        have hfetched := hg.fetched_le
        rw [hg.discovery] at hle hfetched
        rintro (hexhausted | henough)
        · rw [hshort.2] at hexhausted
          cases hexhausted
        · omega
      obtain ⟨m, g', hanswers, hends⟩ := ih wanted hg.next hwanted hleft
      rw [← hg.discovery] at hread
      exact ⟨m, g', hread.bind hanswers, hends.of_next hmore⟩
    · obtain ⟨g', hsettle, hg', hall⟩ := answers_settle hfit hor hsteady hg
      have hstop : (g'.discovery.exhausted || decide (target ≤ g'.found.length)) = true ↔
          Enough f plan driving narrowing maxOffset target n := by
        rw [Bool.or_eq_true, decide_eq_true_iff, hg'.discovery, hg'.length_found_of_settled hall]
        rfl
      by_cases henough : Enough f plan driving narrowing maxOffset target n
      · refine ⟨n, g', hsettle.bind ?_, Nat.le_refl n, by omega, hg', hall, .inr henough, by omega⟩
        rw [if_pos (hstop.2 henough)]
        exact answers_pure g'
      · have hresume : resumeTarget target g' ≤ g'.fetched + (target - g'.found.length) := by
          rw [hall]
          exact Nat.le_refl _
        obtain ⟨m, g'', hanswers, hends⟩ := ih _ hg'.next hresume hleft
        refine ⟨m, g'', hsettle.bind ?_, hends.of_next henough⟩
        rw [if_neg (mt hstop.1 henough)]
        rw [← hg'.discovery] at hread
        exact hread.bind hanswers

/-! ## The page -/

/-- A page sees as much of the first windows that are enough as of all that are left. -/
theorem Ends.window_eq (hfit : f.FitsWords)
    (h : Ends f plan driving narrowing maxOffset (Execution.target plan) 0 last m g) :
    ((f.joinedRoots plan driving narrowing (rowsIn plan m)).drop plan.offset.toNat).take
        plan.limit.toNat =
      ((f.joinedRoots plan driving narrowing (rowsIn plan last)).drop plan.offset.toNat).take
        plan.limit.toNat := by
  have hrows := rowsIn_le_rowsIn plan h.le_last
  have hfew := length_joinedRoots_lt plan driving narrowing hfit (rowsIn plan last)
  rcases h.stops with rfl | hexhausted | henough
  · rfl
  · have hend := (exhausted_after_iff m).1 hexhausted
    rw [joinedRoots_of_length_le (n := rowsIn plan last) (by omega) (by omega)]
  · -- only a list of all words could end before a saturated target
    simp only [Execution.target, Word.toNat_addSat] at henough
    exact Paging.window_eq_of_isPrefix (joinedRoots_mono hrows) (by omega)

variable (f plan driving narrowing maxOffset) in
/-- The joined roots after `n` windows, in the order in which a page shows them. -/
def rootsInOrder (n : Nat) : List Record :=
  let roots := f.joinedRoots plan driving narrowing (rowsIn plan n)
  let roots :=
    if plan.sorts.rootSorts.isEmpty then roots
    else Ties.breakTies (after f plan driving narrowing maxOffset n).ranks plan.sorts.relationKeys
      plan.sorts.rootSorts roots
  roots.map (·.2)

theorem ordered_eq_rootsInOrder (hg : Gathered f plan driving narrowing maxOffset n g)
    (hall : g.fetched = g.discovery.keys.length) :
    ordered plan g = rootsInOrder f plan driving narrowing maxOffset n := by
  have hroots : (g.discovery.keys.filterMap fun key => (g.found.get? key).map (key, ·)) =
      f.joinedRoots plan driving narrowing (rowsIn plan n) := by
    rw [joinedRoots, ← hg.keys_eq, rootsOf]
    apply List.filterMap_congr
    intro key hkey
    simp only [hg.get?_found, hall, List.take_length, if_pos hkey]
  rw [ordered, rootsInOrder, hroots, hg.discovery]

theorem rootsInOrder_of_keys_nil (h : (after f plan driving narrowing maxOffset n).keys = []) :
    rootsInOrder f plan driving narrowing maxOffset n = [] := by
  have hroots : f.joinedRoots plan driving narrowing (rowsIn plan n) = [] :=
    congrArg (f.rootsOf plan driving) h
  simp only [rootsInOrder, hroots]
  split <;> rfl

variable (narrowing) in
/-- A page ordered by a relation is cut out of the roots joined after the last window read. -/
theorem answers_relationOrdered_hydrated (hfit : f.FitsWords)
    (hor : plan.routing.rootOrFilters = []) (hsteady : f.SteadyRoots plan driving)
    (limits : Limits) :
    let last := windowBudget limits (Execution.target plan)
      (Discovery.start plan.limit limits.maxOffset).cursor
    ∃ m g total,
      Ends f plan driving narrowing limits.maxOffset (Execution.target plan) 0 last m g ∧
      f.Answers (relationOrdered plan limits driving narrowing)
        (hydratedPage f plan
          (((rootsInOrder f plan driving narrowing limits.maxOffset m).drop plan.offset.toNat).take
            plan.limit.toNat) total) := by
  intro last
  have hlast : 0 + last ≤ (Discovery.start plan.limit limits.maxOffset).cursor.windowsLeft := by
    rw [Nat.zero_add]
    exact Nat.min_le_right ..
  obtain ⟨m, g, hgather, hends⟩ := answers_gather hfit hor hsteady (Execution.target plan)
    (Execution.target plan) (Gathered.start f plan driving narrowing limits.maxOffset)
    (Nat.le_of_eq (Nat.zero_add _).symm) hlast
  rw [Nat.zero_add] at hends
  have hordered := ordered_eq_rootsInOrder hends.gathered hends.settled
  cases hkeys : g.discovery.keys.isEmpty with
  | true =>
    refine ⟨m, g, 0, hends, hgather.bind ?_⟩
    have hnone : g.discovery.keys = [] := List.isEmpty_iff.1 hkeys
    rw [hends.gathered.discovery] at hnone
    rw [if_pos hkeys, rootsInOrder_of_keys_nil hnone, List.drop_nil, List.take_nil,
      ← emptyPage_eq_hydratedPage]
    exact answers_pure _
  | false =>
    obtain ⟨bound, hbound⟩ := answers_rootTotal plan
    refine ⟨m, g, min bound g.discovery.total, hends, hgather.bind ?_⟩
    rw [if_neg (Bool.eq_false_iff.1 hkeys), ← hordered]
    exact hbound.bind (answers_hydratedPage plan _ _)

variable (narrowing) in
theorem answers_relationOrdered (hfit : f.FitsWords) (hor : plan.routing.rootOrFilters = [])
    (hsteady : f.SteadyRoots plan driving) (limits : Limits) :
    let last := windowBudget limits (Execution.target plan)
      (Discovery.start plan.limit limits.maxOffset).cursor
    ∃ m g page, Ends f plan driving narrowing limits.maxOffset (Execution.target plan) 0 last m g ∧
      f.Answers (relationOrdered plan limits driving narrowing) page ∧
      page.data.map (·.outside plan.attached) =
        (((rootsInOrder f plan driving narrowing limits.maxOffset m).drop plan.offset.toNat).take
          plan.limit.toNat).map (·.outside plan.attached) := by
  intro last
  obtain ⟨m, g, total, hends, hpage⟩ :=
    answers_relationOrdered_hydrated narrowing hfit hor hsteady limits
  exact ⟨m, g, _, hends, hpage, Hydration.map_outside_hydrated plan _⟩

end Execution

end FederatedJoin
