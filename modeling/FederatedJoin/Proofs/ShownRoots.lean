-- SUMMARY: Which roots a page shows, on every way in which a plan is executed and for every sort.
import FederatedJoin.Proofs.Attachments
import FederatedJoin.Proofs.Roots
import FederatedJoin.Proofs.TieBreaks
import Mathlib.Data.List.Perm.Subperm

/-!
# Shown roots

Whatever the sort keys are, a page shows stored roots that satisfy the root's
conditions. When keys are discovered first, the join key of a shown root is a
discovered key. A root without a join key is shown only when the root's provider
orders the keys, since a double equals an integer there.
-/

namespace FederatedJoin

namespace FirstRows

/-- What is remembered was remembered before, or it is one of the added rows. -/
theorem mem_add {known : FirstRows} {field : String} {rows : List Record} {p : JoinKey × Record}
    (h : p ∈ known.add field rows) :
    p ∈ known ∨ p.2 ∈ rows ∧ p.2.joinKey? field = some p.1 := by
  have hmem := (FirstOccurrence.eraseDupsBy_sublist _ _).mem h
  rcases List.mem_append.1 hmem with hknown | hadded
  · exact .inl hknown
  · obtain ⟨row, hrow, hkey⟩ := List.mem_filterMap.1 hadded
    obtain ⟨key, hrowkey, rfl⟩ := Option.map_eq_some_iff.1 hkey
    exact .inr ⟨hrow, hrowkey⟩

theorem mem_of_get? {known : FirstRows} {key : JoinKey} {row : Record}
    (h : known.get? key = some row) : (key, row) ∈ known := by
  unfold get? at h
  obtain ⟨front, back, hknown, -⟩ := List.lookup_eq_some_iff.1 h
  rw [hknown]
  simp

end FirstRows

namespace Federation

variable {f : Federation Collection} {plan : Plan f.schema.relations}
  {driving : RelationId f.schema.relations}

theorem mem_sortedRoots {keys : List JoinKey} {root : Record} :
    root ∈ f.sortedRoots plan driving keys ↔
      root ∈ f.root.rows ∧ plan.routing.rootFilters.all (·.holds root) = true ∧
        ∃ key ∈ keys, (Condition.equal (Execution.rootKeyField driving)
          (.ofJoinKey key)).holds root = true := by
  simp only [sortedRoots, SortKey.sort, List.mem_mergeSort, List.mem_filter, Bool.and_eq_true,
    List.any_eq_true]

theorem mem_rootsWith {key : JoinKey} {root : Record} :
    root ∈ f.rootsWith plan driving key ↔
      root ∈ f.root.rows ∧ plan.routing.rootFilters.all (·.holds root) = true ∧
        root.joinKey? (Execution.rootKeyField driving) = some key := by
  simp only [rootsWith, List.mem_filter, Bool.and_eq_true, decide_eq_true_iff]

/-- A root with a join key is named by that key alone. -/
theorem mem_keys_of_mem_sortedRoots {keys : List JoinKey} {root : Record}
    (h : root ∈ f.sortedRoots plan driving keys) {key : JoinKey}
    (hkey : root.joinKey? (Execution.rootKeyField driving) = some key) : key ∈ keys := by
  obtain ⟨-, -, other, hother, hholds⟩ := mem_sortedRoots.1 h
  rw [(Condition.holds_equal_key hkey other).1 hholds] at hother
  exact hother

end Federation

namespace Execution

open Federation Discovery

/-! ## What gathering finds -/

section Gathering

variable (f : Federation Collection) (plan : Plan f.schema.relations)
  (driving : RelationId f.schema.relations) (narrowing : List (RelationId f.schema.relations))
  (maxOffset : UInt64)

/-- What is known after `n` windows: found are stored roots of discovered keys. Which root of a
key is found is left open. -/
structure Collected (n : Nat) (g : Gathering) : Prop where
  discovery : g.discovery = after f plan driving narrowing maxOffset n
  nodup : (g.found.map (·.1)).Nodup
  found : ∀ p ∈ g.found, p.1 ∈ g.discovery.keys ∧ p.2 ∈ f.rootsWith plan driving p.1

variable {f plan driving narrowing maxOffset} {n : Nat} {g : Gathering}

variable (f plan driving narrowing maxOffset) in
theorem Collected.start :
    Collected f plan driving narrowing maxOffset 0 ⟨.start plan.limit maxOffset, [], 0⟩ where
  discovery := after_zero.symm
  nodup := List.nodup_nil
  found := fun _ hp => nomatch hp

/-- Of every discovered key at most one root is found. -/
theorem Collected.length_found_le (hg : Collected f plan driving narrowing maxOffset n g) :
    g.found.length ≤ g.discovery.keys.length := by
  have hsubset : g.found.map (·.1) ⊆ g.discovery.keys := by
    intro key hkey
    obtain ⟨p, hp, rfl⟩ := List.mem_map.1 hkey
    exact (hg.found p hp).1
  simpa using (List.subperm_of_subset hg.nodup hsubset).length_le

theorem Collected.next (hg : Collected f plan driving narrowing maxOffset n g) :
    Collected f plan driving narrowing maxOffset (n + 1)
      { g with discovery := after f plan driving narrowing maxOffset (n + 1) } := by
  refine ⟨rfl, hg.nodup, fun p hp => ?_⟩
  obtain ⟨hkey, hroot⟩ := hg.found p hp
  rw [hg.discovery] at hkey
  have hmono := keysOfFirst_mono f plan driving narrowing (rowsIn_le_rowsIn plan (Nat.le_succ n))
  exact ⟨hmono.subset hkey, hroot⟩

theorem answers_settle_collected (hfit : f.FitsWords) (hor : plan.routing.rootOrFilters = [])
    (hg : Collected f plan driving narrowing maxOffset n g) :
    ∃ g', f.Answers (settle plan driving g) g' ∧
      Collected f plan driving narrowing maxOffset n g' := by
  unfold settle
  split
  · exact ⟨g, answers_pure g, hg⟩
  · next pending hsome =>
    refine ⟨_, (answers_getMany _ _).bind (answers_pure _), hg.discovery,
      FirstRows.nodup_keys_add .., fun p hp => ?_⟩
    rcases FirstRows.mem_add hp with hknown | ⟨hrow, hkey⟩
    · exact hg.found p hknown
    · rw [data_getMany_rootRequest hfit hor] at hrow
      obtain ⟨hstored, hfilters, -⟩ := mem_sortedRoots.1 hrow
      have hpending := mem_keys_of_mem_sortedRoots hrow hkey
      exact ⟨List.mem_of_mem_drop hpending, mem_rootsWith.2 ⟨hstored, hfilters, hkey⟩⟩

/-- Gathering ends when no window is left, at the end of the driving rows, or with enough roots. -/
theorem answers_gather_collected (hfit : f.FitsWords) (hor : plan.routing.rootOrFilters = [])
    (target : Nat) {left : Nat} (wanted : Nat)
    (hg : Collected f plan driving narrowing maxOffset n g)
    (hleft : n + left ≤ (Discovery.start plan.limit maxOffset).cursor.windowsLeft) :
    ∃ m g', f.Answers (gather plan driving narrowing target left wanted g) g' ∧
      m ≤ n + left ∧ Collected f plan driving narrowing maxOffset m g' ∧
      (m = n + left ∨ g'.discovery.exhausted = true ∨ target ≤ g'.found.length) := by
  -- on the windows left: a window moves discovery on, settling adds roots of known keys
  induction left generalizing n wanted g with
  | zero =>
    obtain ⟨g', hanswers, hg'⟩ := answers_settle_collected hfit hor hg
    exact ⟨n, g', hanswers, Nat.le_refl n, hg', .inl rfl⟩
  | succ left ih =>
    have hread := answers_readWindow plan driving narrowing hfit maxOffset
      (rowsIn_lt_of_lt_windowsLeft (Nat.lt_of_lt_of_le (by omega : n < n + (left + 1)) hleft))
    rw [← Nat.add_assoc, Nat.add_right_comm] at hleft ⊢
    unfold gather
    split
    · obtain ⟨m, g', hanswers, hm⟩ := ih wanted hg.next hleft
      rw [← hg.discovery] at hread
      exact ⟨m, g', hread.bind hanswers, hm⟩
    · obtain ⟨g', hsettle, hg'⟩ := answers_settle_collected hfit hor hg
      by_cases hstop : (g'.discovery.exhausted || decide (target ≤ g'.found.length)) = true
      · refine ⟨n, g', hsettle.bind ?_, by omega, hg', .inr ?_⟩
        · rw [if_pos hstop]
          exact answers_pure g'
        · simpa using hstop
      · obtain ⟨m, g'', hanswers, hm⟩ := ih (resumeTarget target g') hg'.next hleft
        refine ⟨m, g'', hsettle.bind ?_, hm⟩
        rw [if_neg hstop]
        rw [← hg'.discovery] at hread
        exact hread.bind hanswers

theorem exists_key_of_mem_ordered (hg : Collected f plan driving narrowing maxOffset n g)
    {root : Record} (hroot : root ∈ ordered plan g) :
    ∃ key ∈ g.discovery.keys, root ∈ f.rootsWith plan driving key := by
  have hmem : root ∈ (g.discovery.keys.filterMap fun key =>
      (g.found.get? key).map (key, ·)).map (·.2) := by
    unfold ordered at hroot
    split at hroot
    · exact hroot
    · exact ((Ties.breakTies_perm _ _ _ _).map _).mem_iff.1 hroot
  obtain ⟨p, hp, rfl⟩ := List.mem_map.1 hmem
  obtain ⟨key, hkey, hfound⟩ := List.mem_filterMap.1 hp
  obtain ⟨row, hrow, rfl⟩ := Option.map_eq_some_iff.1 hfound
  exact ⟨key, hkey, (hg.found _ (FirstRows.mem_of_get? hrow)).2⟩

/-- No key is known at the end only when all windows that are left name none. -/
theorem keys_eq_nil_of_collected {last target : Nat} (htarget : 0 < target) (hle : n ≤ last)
    (hg : Collected f plan driving narrowing maxOffset n g)
    (hstops : n = last ∨ g.discovery.exhausted = true ∨ target ≤ g.found.length)
    (hkeys : g.discovery.keys = []) :
    keysOfFirst f plan driving narrowing (rowsIn plan last) = [] := by
  have hafter : (after f plan driving narrowing maxOffset n).keys = [] := hg.discovery ▸ hkeys
  rcases hstops with rfl | hexhausted | henough
  · exact hafter
  · rw [hg.discovery] at hexhausted
    exact (keys_after_eq_of_exhausted hle hexhausted).symm.trans hafter
  · have hfew := hg.length_found_le
    rw [hkeys, List.length_nil] at hfew
    omega

end Gathering

/-! ## Pages -/

section Pages

variable {f : Federation Collection} {plan : Plan f.schema.relations}

theorem pageOfPlan_of_relationFirst {driving : RelationId f.schema.relations}
    {narrowing : List (RelationId f.schema.relations)}
    (hstrategy : plan.strategy = .relationFirst driving narrowing) (limits : Limits) :
    pageOfPlan plan limits =
      if plan.isRootOrdered then
        let start := Discovery.start plan.limit limits.maxOffset
        readAll plan driving narrowing start.cursor.windowsLeft start >>=
          rootOrdered plan driving
      else relationOrdered plan limits driving narrowing := by
  unfold pageOfPlan
  rw [hstrategy]
  rfl

/-- The page of roots first is the root's own, hydrated. -/
theorem answers_rootFirst (plan : Plan f.schema.relations) :
    let page := f.root.getMany (windowed plan (rootRequest plan))
    f.Answers (rootFirst plan) (hydratedPage f plan page.data page.total) :=
  (answers_getMany _ _).bind (answers_hydratedPage plan _ _)

/-- The page of a relation's order is cut out of what was gathered. -/
theorem answers_relationOrdered_page (driving : RelationId f.schema.relations)
    (narrowing : List (RelationId f.schema.relations)) (hfit : f.FitsWords)
    (hor : plan.routing.rootOrFilters = []) (limits : Limits) :
    let last := windowBudget limits (Execution.target plan)
      (Discovery.start plan.limit limits.maxOffset).cursor
    ∃ m g bound, m ≤ last ∧ Collected f plan driving narrowing limits.maxOffset m g ∧
      (m = last ∨ g.discovery.exhausted = true ∨ Execution.target plan ≤ g.found.length) ∧
      f.Answers (rootTotal plan) bound ∧
      f.Answers (relationOrdered plan limits driving narrowing)
        (if g.discovery.keys.isEmpty then emptyPage plan
        else hydratedPage f plan (((ordered plan g).drop plan.offset.toNat).take plan.limit.toNat)
          (min bound g.discovery.total)) := by
  intro last
  have hlast : 0 + last ≤ (Discovery.start plan.limit limits.maxOffset).cursor.windowsLeft := by
    rw [Nat.zero_add]
    exact Nat.min_le_right ..
  obtain ⟨m, g, hgather, hle, hg, hstops⟩ := answers_gather_collected hfit hor
    (Execution.target plan) (Execution.target plan)
    (Collected.start f plan driving narrowing limits.maxOffset) hlast
  rw [Nat.zero_add] at hle hstops
  obtain ⟨bound, hbound⟩ := answers_rootTotal plan
  refine ⟨m, g, bound, hle, hg, hstops, hbound, hgather.bind ?_⟩
  split
  · exact answers_pure _
  · exact hbound.bind (answers_hydratedPage plan _ _)

end Pages

end Execution

/-! ## Roots of an answer -/

namespace Federation

open Execution Discovery

variable {f : Federation Collection} {plan : Plan f.schema.relations}

/-- What holds of every root that a page shows. -/
structure Qualifies (f : Federation Collection) (plan : Plan f.schema.relations)
    (root : Record) : Prop where
  stored : root ∈ f.root.rows
  filters : plan.routing.rootFilters.all (·.holds root) = true
  discovered : ∀ driving narrowing, plan.strategy = .relationFirst driving narrowing →
    ∀ key, root.joinKey? (rootKeyField driving) = some key →
      key ∈ keysOfFirst f plan driving narrowing (drivingRows f plan driving).length
  keyed : ∀ driving narrowing, plan.strategy = .relationFirst driving narrowing →
    plan.isRootOrdered = false → ∃ key, root.joinKey? (rootKeyField driving) = some key

theorem qualifies_of_rootFirst (hor : plan.routing.rootOrFilters = [])
    (hstrategy : plan.strategy = .rootFirst) {root : Record}
    (hroot : root ∈ (f.root.getMany (windowed plan (rootRequest plan))).data) :
    f.Qualifies plan root := by
  rw [Collection.data_getMany_of_limit rfl] at hroot
  have hselected := Collection.mem_select.1 (List.mem_of_mem_drop (List.mem_of_mem_take hroot))
  rw [Request.holds_searchTree_of_filters hor rfl] at hselected
  refine ⟨hselected.1, hselected.2, fun _ _ h => ?_, fun _ _ h => ?_⟩
  · rw [hstrategy] at h
    cases h
  · rw [hstrategy] at h
    cases h

theorem qualifies_of_collected {driving : RelationId f.schema.relations}
    {narrowing : List (RelationId f.schema.relations)}
    (hstrategy : plan.strategy = .relationFirst driving narrowing) {maxOffset : UInt64} {n : Nat}
    {g : Gathering} (hg : Collected f plan driving narrowing maxOffset n g) {root : Record}
    (hroot : root ∈ ordered plan g) : f.Qualifies plan root := by
  obtain ⟨key, hkey, hwith⟩ := exists_key_of_mem_ordered hg hroot
  obtain ⟨hstored, hfilters, hrootkey⟩ := mem_rootsWith.1 hwith
  rw [hg.discovery] at hkey
  have hall := (keysOfFirst_isPrefix_all driving narrowing _).subset hkey
  refine ⟨hstored, hfilters, fun other more h key' hkey' => ?_, fun other more h _ => ?_⟩
  · rw [hstrategy] at h
    cases h
    rw [hrootkey] at hkey'
    exact Option.some.inj hkey' ▸ hall
  · rw [hstrategy] at h
    cases h
    exact ⟨key, hrootkey⟩

theorem qualifies_of_rootOrdered (hor : plan.routing.rootOrFilters = [])
    {driving : RelationId f.schema.relations} {narrowing : List (RelationId f.schema.relations)}
    (hstrategy : plan.strategy = .relationFirst driving narrowing)
    (hordered : plan.isRootOrdered = true) {n : Nat} {root : Record}
    (hroot : root ∈ (f.root.getMany (windowed plan ((rootRequest plan).constrainKeys
      (rootKeyField driving) (keysOfFirst f plan driving narrowing n)))).data) :
    f.Qualifies plan root := by
  rw [Collection.data_getMany_of_limit rfl] at hroot
  have hselected := List.mem_of_mem_drop (List.mem_of_mem_take hroot)
  have hsorted : root ∈ f.sortedRoots plan driving (keysOfFirst f plan driving narrowing n) :=
    select_rootRequest hor driving _ ▸ hselected
  obtain ⟨hstored, hfilters, -⟩ := mem_sortedRoots.1 hsorted
  refine ⟨hstored, hfilters, fun other more h key hkey => ?_, fun other more h hnot => ?_⟩
  · rw [hstrategy] at h
    cases h
    have hfirst := mem_keys_of_mem_sortedRoots hsorted hkey
    exact (keysOfFirst_isPrefix_all driving narrowing _).subset hfirst
  · rw [hordered] at hnot
    cases hnot

/-- Every accepted request is answered, with qualifying roots that were then hydrated. -/
theorem answer_shows (hfit : f.FitsWords) {r : Request} (hplan : f.plan r = .ok plan) :
    ∃ page shown, f.answer r = .ok page ∧ page.data = Hydration.hydrated f plan shown ∧
      ∀ root ∈ shown, f.Qualifies plan root := by
  have hor := Plan.rootOrFilters_eq_nil hplan
  suffices ∃ total shown, f.Answers (pageOfPlan plan f.limits) (hydratedPage f plan shown total) ∧
      ∀ root ∈ shown, f.Qualifies plan root by
    obtain ⟨total, shown, hpage, hshown⟩ := this
    exact ⟨_, shown, answer_of_plan hplan hpage, rfl, hshown⟩
  cases hstrategy : plan.strategy with
  | rootFirst =>
    unfold pageOfPlan
    rw [hstrategy]
    exact ⟨_, _, answers_rootFirst plan, fun root => qualifies_of_rootFirst hor hstrategy⟩
  | relationFirst driving narrowing =>
    rw [pageOfPlan_of_relationFirst hstrategy]
    cases hordered : plan.isRootOrdered with
    | true =>
      obtain ⟨m, -, -, -, hread⟩ := answers_readAll plan driving narrowing hfit f.limits.maxOffset
        (Discovery.start plan.limit f.limits.maxOffset).cursor.windowsLeft 0
        (Nat.le_of_eq (Nat.zero_add _))
      rw [after_zero] at hread
      obtain ⟨bound, -, hpage⟩ := answers_rootOrdered_page driving
        (after f plan driving narrowing f.limits.maxOffset m)
      rw [if_pos rfl]
      by_cases hkeys : (after f plan driving narrowing f.limits.maxOffset m).keys.isEmpty = true
      · rw [if_pos hkeys, emptyPage_eq_hydratedPage] at hpage
        exact ⟨_, _, hread.bind hpage, fun root hroot => nomatch hroot⟩
      · rw [if_neg hkeys] at hpage
        exact ⟨_, _, hread.bind hpage, fun root => qualifies_of_rootOrdered hor hstrategy hordered⟩
    | false =>
      obtain ⟨m, g, bound, -, hg, -, -, hpage⟩ :=
        answers_relationOrdered_page driving narrowing hfit hor f.limits
      rw [if_neg Bool.false_ne_true]
      by_cases hkeys : g.discovery.keys.isEmpty = true
      · rw [if_pos hkeys, emptyPage_eq_hydratedPage] at hpage
        exact ⟨_, _, hpage, fun root hroot => nomatch hroot⟩
      · rw [if_neg hkeys] at hpage
        refine ⟨_, _, hpage, fun root hroot => ?_⟩
        have hwindow := List.mem_of_mem_drop (List.mem_of_mem_take hroot)
        exact qualifies_of_collected hstrategy hg hwindow

end Federation

end FederatedJoin
