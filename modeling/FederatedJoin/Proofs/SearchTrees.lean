-- SUMMARY: A request's search tree holds of the records of which its lists and its search hold.
import FederatedJoin.Proofs.Answers
import Mathlib.Logic.Basic

/-!
# Search trees of requests

The tree that a collection evaluates is put together from two lists and a
search: one condition stands without a conjunction around it, lists that say
nothing are left out, tags are removed. None of this has a part in what the tree
holds of. The lists are read as they are documented, the search is read as it
is, and both have to hold.
-/

namespace FederatedJoin

namespace SearchTree

/-! ## Trivial trees -/

mutual

theorem holds_of_isTrivial {tree : SearchTree} (h : tree.isTrivial = true) (row : Record) :
    tree.holds row = true := by
  cases tree with
  | and children => exact allHold_of_allTrivial h row
  | or children => cases h
  | condition c => cases h

theorem allHold_of_allTrivial {children : List SearchTree} (h : allTrivial children = true)
    (row : Record) : allHold row children = true := by
  cases children with
  | nil => rfl
  | cons child rest =>
    obtain ⟨hchild, hrest⟩ := Bool.and_eq_true_iff.1 h
    exact Bool.and_eq_true_iff.2
      ⟨holds_of_isTrivial hchild row, allHold_of_allTrivial hrest row⟩

end

/-! ## Tags -/

mutual

/-- The same tree without the tags of its conditions. -/
def untagged : SearchTree → SearchTree
  | .and children => .and (untaggedAll children)
  | .or children => .or (untaggedAll children)
  | .condition c => .condition c.untagged

def untaggedAll : List SearchTree → List SearchTree
  | [] => []
  | child :: rest => untagged child :: untaggedAll rest

end

mutual

theorem holds_untagged (row : Record) (tree : SearchTree) :
    tree.untagged.holds row = tree.holds row := by
  cases tree with
  | and children => simp only [untagged, holds, allHold_untaggedAll row children]
  | or children => simp only [untagged, holds, anyHolds_untaggedAll row children]
  | condition c => rfl

theorem allHold_untaggedAll (row : Record) (children : List SearchTree) :
    allHold row (untaggedAll children) = allHold row children := by
  cases children with
  | nil => rfl
  | cons child rest =>
    simp only [untaggedAll, allHold, holds_untagged row child, allHold_untaggedAll row rest]

theorem anyHolds_untaggedAll (row : Record) (children : List SearchTree) :
    anyHolds row (untaggedAll children) = anyHolds row children := by
  cases children with
  | nil => rfl
  | cons child rest =>
    simp only [untaggedAll, anyHolds, holds_untagged row child, anyHolds_untaggedAll row rest]

end

end SearchTree

namespace Request

variable {r : Request} {row : Record}

/-- The same request without the tags of its conditions. -/
def untagged (r : Request) : Request :=
  { r with
    filters := r.filters.map (·.untagged)
    orFilters := r.orFilters.map (·.untagged)
    search := r.search.map (·.untagged) }

/-! ## The two lists -/

/-- What the two lists say of a record. -/
def ListsHold (r : Request) (row : Record) : Prop :=
  match r.filters, r.orFilters with
  | [], [] => True
  | filters, [] => ∀ c ∈ filters, c.holds row = true
  | [], orFilters => ∃ c ∈ orFilters, c.holds row = true
  | filters, orFilters =>
    (∀ c ∈ filters, c.holds row = true) ∨ ∀ c ∈ orFilters, c.holds row = true

theorem holds_listTree_iff (r : Request) (row : Record) :
    r.listTree.holds row = true ↔ r.ListsHold row := by
  unfold listTree ListsHold
  cases r.filters with
  | nil =>
    cases r.orFilters with
    | nil => exact iff_of_true rfl trivial
    | cons d more =>
      simp only [SearchTree.holds, SearchTree.anyHolds_eq_any, List.any_map, List.any_eq_true,
        Function.comp_apply, SearchTree.holds_leaf]
  | cons c rest =>
    cases r.orFilters with
    | nil => simp only [SearchTree.holds_all, List.all_eq_true]
    | cons d more =>
      simp only [SearchTree.holds, SearchTree.anyHolds, SearchTree.holds_all, Bool.or_false,
        Bool.or_eq_true, List.all_eq_true]

theorem listsHold_untagged_iff : r.untagged.ListsHold row ↔ r.ListsHold row := by
  have hall (cs : List Condition) :
      (∀ c ∈ cs.map (·.untagged), c.holds row = true) ↔ ∀ c ∈ cs, c.holds row = true :=
    List.forall_mem_map
  have hsome (cs : List Condition) :
      (∃ c ∈ cs.map (·.untagged), c.holds row = true) ↔ ∃ c ∈ cs, c.holds row = true := by
    simp only [List.mem_map, exists_exists_and_eq_and, Condition.holds_untagged]
  unfold ListsHold untagged
  cases r.filters with
  | nil =>
    cases r.orFilters with
    | nil => exact Iff.rfl
    | cons d more => exact hsome (d :: more)
  | cons c rest =>
    cases r.orFilters with
    | nil => exact hall (c :: rest)
    | cons d more => exact or_congr (hall (c :: rest)) (hall (d :: more))

/-! ## The whole request -/

theorem holds_searchTree_iff (r : Request) (row : Record) : r.searchTree.holds row = true ↔
    r.ListsHold row ∧ ∀ search, r.search = some search → search.holds row = true := by
  rw [← holds_listTree_iff, searchTree]
  cases r.search with
  | none => simp
  | some search =>
    simp only [Option.some.injEq, forall_eq']
    split
    · next htrivial =>
      exact (and_iff_right (SearchTree.holds_of_isTrivial htrivial row)).symm
    · simp only [SearchTree.holds, SearchTree.allHold, Bool.and_true, Bool.and_eq_true]

theorem holds_searchTree_untagged (r : Request) (row : Record) :
    r.untagged.searchTree.holds row = r.searchTree.holds row := by
  rw [Bool.eq_iff_iff, holds_searchTree_iff, holds_searchTree_iff, listsHold_untagged_iff]
  simp only [untagged, Option.map_eq_some_iff, forall_exists_index, and_imp,
    forall_apply_eq_imp_iff₂, SearchTree.holds_untagged]

/-- The search tree of a request holds of a record when its lists do, as they are documented, and
its search does. Requests that differ in tags hold of the same records, and a trivial tree holds of
all. -/
theorem searchTree_means (r : Request) (row : Record) :
    (r.searchTree.holds row = true ↔
      r.ListsHold row ∧ ∀ search, r.search = some search → search.holds row = true) ∧
    (∀ q : Request, q.untagged = r.untagged → q.searchTree.holds row = r.searchTree.holds row) ∧
    ∀ tree : SearchTree, tree.isTrivial = true → tree.holds row = true := by
  refine ⟨holds_searchTree_iff r row, fun q htags => ?_, fun tree htrivial => ?_⟩
  · rw [← holds_searchTree_untagged q, htags, holds_searchTree_untagged]
  · exact SearchTree.holds_of_isTrivial htrivial row

end Request

namespace Shop

/-- Orders above 9, or those of the first customer at 8; and in any case none without a price. -/
def searched : Request :=
  { Request.empty with
    filters := [⟨"price", .greater, .int 9, some "orders"⟩]
    orFilters := [⟨"customer", .equal, .int 1, none⟩, ⟨"price", .equal, .int 8, some "shops"⟩]
    search := some (.and [.or [.condition ⟨"price", .notNull, .null, some "orders"⟩]]) }

/-- The order at 8 is found by the second list, tags or not; another customer's is not. -/
theorem searchTree_means_searched : searched.ListsHold (order 1 8) ∧
    searched.searchTree.holds (order 1 8) = true ∧
    searched.untagged.searchTree.holds (order 1 8) = true ∧
    searched.searchTree.holds (order 2 8) ≠ true := by
  obtain ⟨hholds, htags, -⟩ := Request.searchTree_means searched (order 1 8)
  obtain ⟨hother, -⟩ := Request.searchTree_means searched (order 2 8)
  have hlists : searched.ListsHold (order 1 8) := .inr (by decide)
  have hsearch : searched.searchTree.holds (order 1 8) = true := by
    refine hholds.2 ⟨hlists, ?_⟩
    rintro _ ⟨⟩
    decide
  refine ⟨hlists, hsearch, (htags searched.untagged rfl).trans hsearch, fun h => ?_⟩
  rcases (hother.1 h).1 with hfirst | hsecond
  · exact absurd hfirst (by decide)
  · exact absurd hsecond (by decide)

end Shop

end FederatedJoin
