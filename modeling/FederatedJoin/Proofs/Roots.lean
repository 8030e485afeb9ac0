-- SUMMARY: What the root's provider answers when it is asked for keys.
import FederatedJoin.Proofs.Answers
import FederatedJoin.Proofs.Plans
import FederatedJoin.Proofs.SortOrder

/-!
# Roots of keys

The roots of discovered keys come from the root's provider, which may be asked
for all keys at once or for some after the others. Where the first root of a
key does not depend on the keys asked for with it, `SteadyRoots`, both ways
lead to the same roots.
-/

namespace FederatedJoin

namespace Federation

variable (f : Federation Collection) (plan : Plan f.schema.relations)

/-- The roots that satisfy the root's conditions and whose key field equals one of the keys,
in the order of the root sort keys and otherwise as they are stored. -/
def sortedRoots (driving : RelationId f.schema.relations) (keys : List JoinKey) : List Record :=
  let field := Execution.rootKeyField driving
  SortKey.sort plan.sorts.rootSorts (f.root.rows.filter fun row =>
    plan.routing.rootFilters.all (·.holds row) &&
      keys.any fun key => (Condition.equal field (.ofJoinKey key)).holds row)

variable {f plan}

theorem sortedRoots_nil (driving : RelationId f.schema.relations) :
    f.sortedRoots plan driving [] = [] := by
  have hnone : (f.root.rows.filter fun row => plan.routing.rootFilters.all (·.holds row) &&
      ([] : List JoinKey).any fun key =>
        (Condition.equal (Execution.rootKeyField driving) (.ofJoinKey key)).holds row) = [] :=
    List.filter_eq_nil_iff.2 fun row _ => by simp
  simp only [sortedRoots, hnone]
  exact List.mergeSort_nil

/-- The root's provider answers a key constraint with the sorted roots of those keys. -/
theorem select_rootRequest (hor : plan.routing.rootOrFilters = [])
    (driving : RelationId f.schema.relations) (keys : List JoinKey) :
    f.root.select ((Execution.rootRequest plan).constrainKeys
      (Execution.rootKeyField driving) keys) = f.sortedRoots plan driving keys := by
  unfold sortedRoots Collection.select
  apply congrArg (SortKey.sort plan.sorts.rootSorts)
  apply List.filter_congr
  intro row _
  rw [Request.holds_constrainKeys_of_filters (q := Execution.rootRequest plan) hor rfl,
    Request.holds_searchTree_of_filters (q := Execution.rootRequest plan) hor rfl,
    Condition.holds_oneOf, List.any_map]
  rfl

/-- Without a window the page holds all of them. -/
theorem data_getMany_rootRequest (hfit : f.FitsWords) (hor : plan.routing.rootOrFilters = [])
    (driving : RelationId f.schema.relations) (keys : List JoinKey) :
    ((f.provider .root).getMany ((Execution.rootRequest plan).constrainKeys
      (Execution.rootKeyField driving) keys)).data = f.sortedRoots plan driving keys :=
  (Collection.data_getMany_of_unlimited (hfit .root) rfl rfl).trans
    (select_rootRequest hor driving keys)

/-- The first root of a key, when the root's provider is asked for it alone. -/
def firstRoot? (f : Federation Collection) (plan : Plan f.schema.relations)
    (driving : RelationId f.schema.relations) (key : JoinKey) : Option Record :=
  (f.sortedRoots plan driving [key]).find?
    (·.joinKey? (Execution.rootKeyField driving) = some key)

/-- The first root of a key does not depend on the keys that are asked for with it. -/
def SteadyRoots (f : Federation Collection) (plan : Plan f.schema.relations)
    (driving : RelationId f.schema.relations) : Prop :=
  ∀ keys key, (f.sortedRoots plan driving keys).find?
    (·.joinKey? (Execution.rootKeyField driving) = some key) =
      if key ∈ keys then f.firstRoot? plan driving key else none

/-- The stored roots of a key that satisfy the root's conditions. -/
def rootsWith (f : Federation Collection) (plan : Plan f.schema.relations)
    (driving : RelationId f.schema.relations) (key : JoinKey) : List Record :=
  f.root.rows.filter fun row => plan.routing.rootFilters.all (·.holds row) &&
    row.joinKey? (Execution.rootKeyField driving) = some key

/-- The first stored root of a key, of those that satisfy the root's conditions. -/
def storedRoot? (f : Federation Collection) (plan : Plan f.schema.relations)
    (driving : RelationId f.schema.relations) (key : JoinKey) : Option Record :=
  f.root.rows.find? fun row => plan.routing.rootFilters.all (·.holds row) &&
    row.joinKey? (Execution.rootKeyField driving) = some key

/-- Of the rows that one of the keys names, those of one key are all its rows or none. -/
theorem filter_joinKey_named (rows : List Record) (satisfies : Record → Bool) (field : String)
    (keys : List JoinKey) (key : JoinKey) :
    (rows.filter fun row => satisfies row &&
        keys.any fun k => (Condition.equal field (.ofJoinKey k)).holds row).filter
      (·.joinKey? field = some key) =
        if key ∈ keys then rows.filter fun row => satisfies row && row.joinKey? field = some key
        else [] := by
  rw [List.filter_filter]
  split
  · next hkey =>
    apply List.filter_congr
    intro row _
    by_cases hrow : row.joinKey? field = some key
    · simp [hrow, Condition.any_equal_key hrow, hkey]
    · simp [hrow]
  · next hkey =>
    apply List.filter_eq_nil_iff.2
    intro row _
    by_cases hrow : row.joinKey? field = some key
    · simp [Condition.any_equal_key hrow, hkey]
    · simp [hrow]

theorem find?_sortedRoots_of_unsorted (hsorts : plan.sorts.rootSorts = [])
    (driving : RelationId f.schema.relations) (keys : List JoinKey) (key : JoinKey) :
    (f.sortedRoots plan driving keys).find?
      (·.joinKey? (Execution.rootKeyField driving) = some key) =
        if key ∈ keys then f.storedRoot? plan driving key else none := by
  unfold sortedRoots
  rw [hsorts, SortKey.sort_nil, ← List.head?_filter, filter_joinKey_named]
  split
  · rw [List.head?_filter]
    rfl
  · rfl

theorem firstRoot?_of_unsorted (hsorts : plan.sorts.rootSorts = [])
    (driving : RelationId f.schema.relations) (key : JoinKey) :
    f.firstRoot? plan driving key = f.storedRoot? plan driving key := by
  simp only [firstRoot?, find?_sortedRoots_of_unsorted hsorts, if_pos List.mem_cons_self]

/-- Without root sorts the roots stand in storage order, whichever are asked for. -/
theorem steadyRoots_of_unsorted (hsorts : plan.sorts.rootSorts = [])
    (driving : RelationId f.schema.relations) : f.SteadyRoots plan driving := by
  intro keys key
  rw [find?_sortedRoots_of_unsorted hsorts, firstRoot?_of_unsorted hsorts]

/-- Of uniform columns the first root of a key is the same, whichever are asked for. -/
theorem steadyRoots_of_uniform
    (huniform : ∀ key ∈ plan.sorts.rootSorts, Uniform f.root.rows key.field)
    (driving : RelationId f.schema.relations) : f.SteadyRoots plan driving := by
  obtain ⟨cmp, hcmp, hcompare⟩ := SortKey.exists_compareAll huniform
  have hfind : ∀ keys key, (f.sortedRoots plan driving keys).find?
      (·.joinKey? (Execution.rootKeyField driving) = some key) = if key ∈ keys then
        ((f.rootsWith plan driving key).mergeSort fun a b => (cmp a b).isLE).head? else none := by
    intro keys key
    have hsort : ∀ p : Record → Bool, SortKey.sort plan.sorts.rootSorts (f.root.rows.filter p) =
        (f.root.rows.filter p).mergeSort fun a b => (cmp a b).isLE := by
      intro p
      apply Sorting.mergeSort_congr
      intro a ha b hb
      rw [hcompare a (List.mem_filter.1 ha).1 b (List.mem_filter.1 hb).1]
    rw [← List.head?_filter, sortedRoots, hsort, Sorting.filter_mergeSort_isLE,
      filter_joinKey_named]
    split
    · rfl
    · simp only [List.mergeSort_nil, List.head?_nil]
  intro keys key
  simp only [hfind, firstRoot?, if_pos List.mem_cons_self]

/-- The first root of a key is one of its stored roots, in whatever way the roots are sorted. -/
theorem mem_rootsWith_of_firstRoot? {driving : RelationId f.schema.relations} {key : JoinKey}
    {root : Record} (h : f.firstRoot? plan driving key = some root) :
    root ∈ f.rootsWith plan driving key := by
  have hkey := List.find?_some h
  have hmem := List.mem_of_find?_eq_some h
  simp only [sortedRoots, SortKey.sort, List.mem_mergeSort, List.mem_filter,
    Bool.and_eq_true] at hmem
  simp only [rootsWith, List.mem_filter, Bool.and_eq_true]
  exact ⟨hmem.1, hmem.2.1, hkey⟩

end Federation

namespace Execution

open Federation

variable {f : Federation Collection} {plan : Plan f.schema.relations}

theorem answers_rootTotal (plan : Plan f.schema.relations) :
    ∃ bound, f.Answers (rootTotal plan) bound := by
  unfold rootTotal
  split
  · exact ⟨_, (answers_getMany _ _).bind (answers_pure _)⟩
  · exact ⟨_, answers_pure _⟩

/-! ## Pages of roots -/

/-- The page of the roots once they are hydrated. -/
def hydratedPage (f : Federation Collection) (plan : Plan f.schema.relations)
    (roots : List Record) (total : UInt64) : Page :=
  pageOf plan (Hydration.hydrated f plan roots) total

theorem answers_hydratedPage (plan : Plan f.schema.relations) (roots : List Record)
    (total : UInt64) :
    f.Answers (Hydration.hydrate plan roots >>= fun roots => pure (pageOf plan roots total))
      (hydratedPage f plan roots total) :=
  (Hydration.answers_hydrate plan roots).bind (answers_pure _)

theorem hydrated_nil (plan : Plan f.schema.relations) : Hydration.hydrated f plan [] = [] :=
  List.map_eq_nil_iff.1 (Hydration.map_outside_hydrated plan [])

theorem emptyPage_eq_hydratedPage (plan : Plan f.schema.relations) :
    emptyPage plan = hydratedPage f plan [] 0 := by
  rw [hydratedPage, hydrated_nil]
  rfl

/-- The page of the root's order is the page of the discovered keys at the root's provider. -/
theorem answers_rootOrdered_page (driving : RelationId f.schema.relations) (d : Discovery) :
    let page := f.root.getMany
      (windowed plan ((rootRequest plan).constrainKeys (rootKeyField driving) d.keys))
    ∃ bound, f.Answers (rootTotal plan) bound ∧
      f.Answers (rootOrdered plan driving d)
        (if d.keys.isEmpty then emptyPage plan
        else hydratedPage f plan page.data
          (if d.exhausted then page.total else max (min bound d.total) page.total)) := by
  intro page
  obtain ⟨bound, hbound⟩ := answers_rootTotal plan
  refine ⟨bound, hbound, ?_⟩
  unfold rootOrdered
  split
  · exact answers_pure _
  · apply (answers_getMany _ _).bind
    cases d.exhausted with
    | true => exact (answers_pure page.total).bind (answers_hydratedPage plan _ _)
    | false => exact hbound.bind ((answers_pure _).bind (answers_hydratedPage plan _ _))

end Execution

end FederatedJoin
