-- SUMMARY: Breaking ties rearranges maximal runs, and is a stable sort where roots enter in order.
import FederatedJoin.Ties
import FederatedJoin.Proofs.Answers
import FederatedJoin.Proofs.SortOrder
import Mathlib.Data.List.Chain
import Mathlib.Data.List.Perm.Basic

/-!
# Breaking ties

Every run is a block of neighbours that tie with its head, and ends where one
does not. Sorting the blocks moves nothing out of its run. Where the roots enter
in the order of their driving rows, it is the stable sort by driving row first
and root second, and where they enter in that finer order, nothing changes.
-/

namespace FederatedJoin.Ties

open Std Sorting

variable {α : Type}

/-! ## Runs -/

/-- A run is its head and items that tie with it. -/
def IsRun (tied : α → α → Bool) (run : List α) : Prop :=
  ∃ head rest, run = head :: rest ∧ ∀ x ∈ rest, tied head x = true

/-- Where the tie is one of a total preorder, all of a run tie with each other. -/
theorem IsRun.compare_eq {cmp : α → α → Ordering} [TransCmp cmp] {tied : α → α → Bool}
    {run : List α} (h : IsRun tied run)
    (htied : ∀ a ∈ run, ∀ b ∈ run, tied a b = (cmp a b).isEq) :
    ∀ a ∈ run, ∀ b ∈ run, cmp a b = .eq := by
  obtain ⟨head, rest, rfl, hrest⟩ := h
  have hhead : ∀ a ∈ head :: rest, cmp head a = .eq := by
    intro a ha
    rcases List.mem_cons.1 ha with rfl | harest
    · exact ReflCmp.compare_self
    · have htie := hrest a harest
      rw [htied head List.mem_cons_self a ha] at htie
      exact Ordering.isEq_iff_eq_eq.1 htie
  exact fun a ha b hb => TransCmp.eq_trans (OrientedCmp.eq_symm (hhead a ha)) (hhead b hb)

theorem isRun_splitRun (tied : α → α → Bool) (head : α) (xs : List α) :
    (∀ x ∈ (splitRun tied head xs).1, tied head x = true) ∧
      ∀ run ∈ (splitRun tied head xs).2, IsRun tied run := by
  induction xs generalizing head with
  | nil =>
    constructor
    · intro x hx
      cases hx
    · intro run hrun
      cases hrun
  | cons x rest ih =>
    cases hx : tied head x with
    | true =>
      obtain ⟨hrun, hmore⟩ := ih head
      simp only [splitRun, hx, if_true]
      refine ⟨?_, hmore⟩
      intro y hy
      rcases List.mem_cons.1 hy with rfl | hy
      · exact hx
      · exact hrun y hy
    | false =>
      obtain ⟨hrun, hmore⟩ := ih x
      simp only [splitRun, hx, Bool.false_eq_true, if_false]
      constructor
      · intro y hy
        cases hy
      · intro run hmem
        rcases List.mem_cons.1 hmem with rfl | hmem
        · exact ⟨x, _, rfl, hrun⟩
        · exact hmore run hmem

theorem isRun_of_mem_runs {tied : α → α → Bool} {xs run : List α} (h : run ∈ runs tied xs) :
    IsRun tied run := by
  cases xs with
  | nil => cases h
  | cons x rest =>
    obtain ⟨hrun, hmore⟩ := isRun_splitRun tied x rest
    rcases List.mem_cons.1 h with rfl | h
    · exact ⟨x, _, rfl, hrun⟩
    · exact hmore run h

theorem sublist_of_mem_runs {tied : α → α → Bool} {xs run : List α} (h : run ∈ runs tied xs) :
    run.Sublist xs := by
  have hsub := List.sublist_flatten_of_mem h
  rwa [flatten_runs] at hsub

/-! ## Maximal runs -/

/-- The next block starts where an item does not tie with the first one of this block. -/
def EndsBefore (tied : α → α → Bool) (block next : List α) : Prop :=
  ∀ head ∈ block.head?, ∀ other ∈ next.head?, tied head other = false

/-- Blocks of neighbours that tie with the first of the block, each as long as it can be. -/
structure MaximalRuns (tied : α → α → Bool) (xs : List α) (blocks : List (List α)) : Prop where
  flatten : blocks.flatten = xs
  run : ∀ block ∈ blocks, IsRun tied block
  maximal : blocks.IsChain (EndsBefore tied)

/-- The same items, none of which has left its maximal run. -/
def RearrangesRuns (tied : α → α → Bool) (before after : List α) : Prop :=
  ∃ blocks parts, MaximalRuns tied before blocks ∧ List.Forall₂ List.Perm parts blocks ∧
    parts.flatten = after

section MaximalRuns

variable {tied : α → α → Bool} {xs : List α} {blocks : List (List α)}

theorem isChain_splitRun (tied : α → α → Bool) (head : α) (xs : List α) :
    List.IsChain (EndsBefore tied)
      ((head :: (splitRun tied head xs).1) :: (splitRun tied head xs).2) := by
  induction xs generalizing head with
  | nil => exact .singleton _
  | cons x rest ih =>
    cases hx : tied head x with
    | true =>
      simp only [splitRun, hx, if_true]
      -- the head is all that the next block is compared with
      have hrest := ih head
      rw [List.isChain_cons] at hrest ⊢
      exact hrest
    | false =>
      simp only [splitRun, hx, Bool.false_eq_true, if_false]
      rw [List.isChain_cons_cons]
      refine ⟨?_, ih x⟩
      intro first hfirst other hother
      cases Option.mem_some.1 hfirst
      cases Option.mem_some.1 hother
      exact hx

theorem maximalRuns_runs (tied : α → α → Bool) (xs : List α) :
    MaximalRuns tied xs (runs tied xs) where
  flatten := flatten_runs tied xs
  run _ hrun := isRun_of_mem_runs hrun
  maximal := by
    cases xs with
    | nil => exact .nil
    | cons x rest => exact isChain_splitRun tied x rest

theorem eq_lt_of_isLE {order : Ordering} (hle : order.isLE = true) (hne : order.isEq = false) :
    order = .lt := by
  cases order with
  | lt => rfl
  | eq => cases hne
  | gt => cases hle

/-- In a sorted list the maximal runs of ties are the classes of equal items, in order. -/
theorem MaximalRuns.separated {cmp : α → α → Ordering} [TransCmp cmp]
    (h : MaximalRuns tied xs blocks) (htied : ∀ a ∈ xs, ∀ b ∈ xs, tied a b = (cmp a b).isEq)
    (hsorted : xs.Pairwise fun a b => (cmp a b).isLE = true) :
    blocks.Pairwise fun front back => ∀ a ∈ front, ∀ b ∈ back, cmp a b = .lt := by
  obtain ⟨rfl, hruns, hchain⟩ := h
  induction blocks with
  | nil => exact .nil
  | cons block rest ih =>
    rw [List.flatten_cons] at htied hsorted
    obtain ⟨-, hrest, hacross⟩ := List.pairwise_append.1 hsorted
    refine List.pairwise_cons.2 ⟨fun back hback a ha b hb => ?_, ?_⟩
    · cases rest with
      | nil => cases hback
      | cons next others =>
        have hfront := (hruns block List.mem_cons_self).compare_eq fun x hx y hy =>
          htied x (List.mem_append_left _ hx) y (List.mem_append_left _ hy)
        obtain ⟨head, run, rfl, -⟩ := hruns block List.mem_cons_self
        obtain ⟨other, more, rfl, -⟩ := hruns next (List.mem_cons_of_mem _ List.mem_cons_self)
        have hother : other ∈ ((other :: more) :: others).flatten :=
          List.mem_flatten_of_mem List.mem_cons_self List.mem_cons_self
        -- an item ties with its head, which is before the next head, and that is not after the rest
        have hstep : cmp head other = .lt := by
          have hends := (List.isChain_cons_cons.1 hchain).1 head rfl other rfl
          rw [htied head List.mem_cons_self other (List.mem_append_right _ hother)] at hends
          exact eq_lt_of_isLE (hacross head List.mem_cons_self other hother) hends
        have hlast : (cmp other b).isLE = true := by
          have hmem : b ∈ other :: (more ++ others.flatten) := List.mem_flatten_of_mem hback hb
          rcases List.mem_cons.1 hmem with rfl | hmem
          · exact Ordering.isLE_of_eq_eq ReflCmp.compare_self
          · exact (List.pairwise_cons.1 hrest).1 b hmem
        have hfirst := hfront a ha head List.mem_cons_self
        exact TransCmp.lt_of_lt_of_isLE (TransCmp.lt_of_eq_of_lt hfirst hstep) hlast
    · apply ih
      · exact fun next hnext => hruns next (List.mem_cons_of_mem _ hnext)
      · exact hchain.tail
      · exact fun a ha b hb => htied a (List.mem_append_right _ ha) b (List.mem_append_right _ hb)
      · exact hrest

/-- Where the list is sorted by the comparison that ties its runs, sorting the runs by a second one
is sorting the list by both. -/
theorem flatMap_runs_mergeSort {first second : α → α → Ordering} [OrientedCmp first]
    [OrientedCmp second] (hfirst : TransitiveOn first xs) (hsecond : TransitiveOn second xs)
    (htied : ∀ a ∈ xs, ∀ b ∈ xs, tied a b = (first a b).isEq)
    (hsorted : xs.Pairwise fun a b => (first a b).isLE = true) :
    ((runs tied xs).flatMap (·.mergeSort fun a b => (second a b).isLE)) =
      xs.mergeSort fun a b => (compareLex first second a b).isLE := by
  obtain ⟨front, hfront, hfrontEq⟩ := hfirst.exists_transCmp
  obtain ⟨both, hboth, hbothEq⟩ := (hfirst.lex hsecond).exists_transCmp
  have hruns := maximalRuns_runs tied xs
  have hsub : ∀ run ∈ runs tied xs, ∀ a ∈ run, a ∈ xs :=
    fun run hrun a ha => (sublist_of_mem_runs hrun).mem ha
  have htiedFront : ∀ a ∈ xs, ∀ b ∈ xs, tied a b = (front a b).isEq := by
    intro a ha b hb
    rw [htied a ha b hb, hfrontEq a ha b hb]
  have hseparated : (runs tied xs).Pairwise fun block next =>
      ∀ a ∈ block, ∀ b ∈ next, (both a b).isLE = true := by
    have hlt := hruns.separated htiedFront <|
      hsorted.imp_of_mem fun {a b} ha hb hab => by rwa [← hfrontEq a ha b hb]
    apply hlt.imp_of_mem
    intro block next hblock hnext h a ha b hb
    have hmem := hsub block hblock a ha
    have hmem' := hsub next hnext b hb
    rw [← hbothEq a hmem b hmem', compareLex, hfrontEq a hmem b hmem', h a ha b hb]
    rfl
  -- in a run the first comparison ties, and only the second is left
  have hinside : ∀ run ∈ runs tied xs, (run.mergeSort fun a b => (second a b).isLE) =
      run.mergeSort fun a b => (both a b).isLE := by
    intro run hrun
    have hmem := hsub run hrun
    have htie := (hruns.run run hrun).compare_eq fun a ha b hb =>
      htiedFront a (hmem a ha) b (hmem b hb)
    apply mergeSort_isLE_congr
    intro a ha b hb
    rw [← hbothEq a (hmem a ha) b (hmem b hb), compareLex,
      hfrontEq a (hmem a ha) b (hmem b hb), htie a ha b hb]
    rfl
  calc (runs tied xs).flatMap (·.mergeSort fun a b => (second a b).isLE)
    _ = (runs tied xs).flatMap (·.mergeSort fun a b => (both a b).isLE) :=
      List.flatMap_congr hinside
    _ = (runs tied xs).flatten.mergeSort fun a b => (both a b).isLE :=
      (mergeSort_flatten hseparated).symm
    _ = xs.mergeSort fun a b => (both a b).isLE := by rw [flatten_runs]
    _ = xs.mergeSort fun a b => (compareLex first second a b).isLE :=
      (mergeSort_isLE_congr hbothEq).symm

end MaximalRuns

/-! ## Sorting the runs -/

variable {ranks : FirstRows} {relationSorts rootSorts : List SortKey}

variable (ranks relationSorts rootSorts) in
/-- No root is lost and none is shown twice. -/
theorem breakTies_perm (roots : List (JoinKey × Record)) :
    (breakTies ranks relationSorts rootSorts roots).Perm roots := by
  have hruns := List.Perm.flatMap_left
    (runs (fun a b => tied ranks relationSorts a.1 b.1) roots)
    (f := fun run => run.mergeSort fun a b => (SortKey.compareAll rootSorts a.2 b.2).isLE)
    (g := id) fun run _ => List.mergeSort_perm ..
  simp only [List.flatMap_id, flatten_runs] at hruns
  exact hruns

variable (ranks relationSorts rootSorts) in
theorem rearrangesRuns_breakTies (roots : List (JoinKey × Record)) :
    RearrangesRuns (fun a b => tied ranks relationSorts a.1 b.1) roots
      (breakTies ranks relationSorts rootSorts roots) := by
  refine ⟨_, _, maximalRuns_runs _ roots, ?_, List.flatMap_def.symm⟩
  apply List.forall₂_map_left_iff.2
  exact List.forall₂_same.2 fun run _ => List.mergeSort_perm ..

variable (relationSorts rootSorts) in
/-- The order of roots by their driving rows, and then by the root sorts. -/
def compareRanked (rank : JoinKey → Record) : JoinKey × Record → JoinKey × Record → Ordering :=
  compareLex (fun a b => SortKey.compareAll relationSorts (rank a.1) (rank b.1))
    fun a b => SortKey.compareAll rootSorts a.2 b.2

section Ranked

variable {rank : JoinKey → Record} {roots : List (JoinKey × Record)}

instance : OrientedCmp fun a b : JoinKey × Record =>
    SortKey.compareAll relationSorts (rank a.1) (rank b.1) where
  eq_swap := OrientedCmp.eq_swap

instance : OrientedCmp fun a b : JoinKey × Record => SortKey.compareAll rootSorts a.2 b.2 where
  eq_swap := OrientedCmp.eq_swap

instance : OrientedCmp (compareRanked relationSorts rootSorts rank) :=
  inferInstanceAs (OrientedCmp (compareLex _ _))

theorem tied_eq_isEq (hranks : ∀ a ∈ roots, ranks.get? a.1 = some (rank a.1)) :
    ∀ a ∈ roots, ∀ b ∈ roots, tied ranks relationSorts a.1 b.1 =
      (SortKey.compareAll relationSorts (rank a.1) (rank b.1)).isEq := by
  intro a ha b hb
  simp only [tied, hranks a ha, hranks b hb]

/-- Where roots are sorted by their driving rows and then by the root sorts, ties are broken. -/
theorem breakTies_eq_self (hranks : ∀ a ∈ roots, ranks.get? a.1 = some (rank a.1))
    (hrows : TransitiveOn (SortKey.compareAll relationSorts) (roots.map fun a => rank a.1))
    (hsorted : roots.Pairwise fun a b =>
      (compareRanked relationSorts rootSorts rank a b).isLE = true) :
    breakTies ranks relationSorts rootSorts roots = roots := by
  obtain ⟨cmp, hcmp, hcompare⟩ := hrows.comap.exists_transCmp
  have hruns : ∀ run ∈ runs (fun a b => tied ranks relationSorts a.1 b.1) roots,
      (run.mergeSort fun a b => (SortKey.compareAll rootSorts a.2 b.2).isLE) = run := by
    intro run hrun
    have hsub := sublist_of_mem_runs hrun
    have htie := (isRun_of_mem_runs hrun).compare_eq fun a ha b hb => by
      rw [tied_eq_isEq hranks a (hsub.mem ha) b (hsub.mem hb),
        hcompare a (hsub.mem ha) b (hsub.mem hb)]
    apply List.mergeSort_of_pairwise
    apply (hsorted.sublist hsub).imp_of_mem
    intro a b ha hb hab
    rwa [compareRanked, compareLex, hcompare a (hsub.mem ha) b (hsub.mem hb), htie a ha b hb]
      at hab
  simp only [breakTies, List.flatMap_congr hruns, List.flatMap_id', flatten_runs]

/-- Where roots enter in the order of their driving rows, breaking ties is the stable sort by
driving rows and then by the root sorts. -/
theorem breakTies_eq_mergeSort (hranks : ∀ a ∈ roots, ranks.get? a.1 = some (rank a.1))
    (hrows : TransitiveOn (SortKey.compareAll relationSorts) (roots.map fun a => rank a.1))
    (hroots : TransitiveOn (SortKey.compareAll rootSorts) (roots.map (·.2)))
    (hsorted : roots.Pairwise fun a b =>
      (SortKey.compareAll relationSorts (rank a.1) (rank b.1)).isLE = true) :
    breakTies ranks relationSorts rootSorts roots =
      roots.mergeSort fun a b => (compareRanked relationSorts rootSorts rank a b).isLE :=
  flatMap_runs_mergeSort hrows.comap hroots.comap (tied_eq_isEq hranks) hsorted

end Ranked

/-- Roots never leave their maximal run. Where each has a driving row, they enter in the order of
these rows, and both comparisons are transitive on them, the result is their stable sort by driving
rows and then by the root sorts, and has no ties left to break. -/
theorem breakTies_stable (ranks : FirstRows) (relationSorts rootSorts : List SortKey)
    (roots : List (JoinKey × Record)) :
    (breakTies ranks relationSorts rootSorts roots).Perm roots ∧
    RearrangesRuns (fun a b => tied ranks relationSorts a.1 b.1) roots
      (breakTies ranks relationSorts rootSorts roots) ∧
    ∀ rank : JoinKey → Record, (∀ a ∈ roots, ranks.get? a.1 = some (rank a.1)) →
      (roots.Pairwise fun a b =>
        (SortKey.compareAll relationSorts (rank a.1) (rank b.1)).isLE = true) →
      TransitiveOn (SortKey.compareAll relationSorts) (roots.map fun a => rank a.1) →
      TransitiveOn (SortKey.compareAll rootSorts) (roots.map (·.2)) →
      breakTies ranks relationSorts rootSorts roots =
        (roots.mergeSort fun a b => (compareRanked relationSorts rootSorts rank a b).isLE) ∧
      StablySorted (compareRanked relationSorts rootSorts rank) roots
        (breakTies ranks relationSorts rootSorts roots) ∧
      breakTies ranks relationSorts rootSorts (breakTies ranks relationSorts rootSorts roots) =
        breakTies ranks relationSorts rootSorts roots := by
  refine ⟨breakTies_perm .., rearrangesRuns_breakTies .., ?_⟩
  intro rank hranks hsorted hrows hroots
  have hperm := breakTies_perm ranks relationSorts rootSorts roots
  have hsort := breakTies_eq_mergeSort hranks hrows hroots hsorted
  have hstable : StablySorted (compareRanked relationSorts rootSorts rank) roots
      (breakTies ranks relationSorts rootSorts roots) := by
    rw [hsort]
    exact stablySorted_mergeSort (hrows.comap.lex hroots.comap)
  have hranksAfter := fun a ha => hranks a (hperm.mem_iff.1 ha)
  have hrowsAfter := hrows.mono (hperm.map fun a => rank a.1).subset
  exact ⟨hsort, hstable, breakTies_eq_self hranksAfter hrowsAfter hstable.ordered⟩

end FederatedJoin.Ties

namespace FederatedJoin.Shop

open Ties Sorting

/-- Customers in the order of their orders' prices. -/
def foundCustomers : List (JoinKey × Record) :=
  [(.int 1, customer 1 8), (.int 2, customer 2 3), (.int 3, customer 3 1)]

/-- The order that each customer was found by. -/
def foundOrders : FirstRows := [(.int 1, order 1 5), (.int 2, order 2 5), (.int 3, order 3 7)]

/-- The first two customers tie and change places; the third one stays, though its rank is least. -/
theorem breakTies_found :
    breakTies foundOrders [.ascending "price"] [.ascending "rank"] foundCustomers =
      [(.int 2, customer 2 3), (.int 1, customer 1 8), (.int 3, customer 3 1)] ∧
    StablySorted (compareRanked [.ascending "price"] [.ascending "rank"]
        fun key => (foundOrders.get? key).getD .empty)
      foundCustomers
      (breakTies foundOrders [.ascending "price"] [.ascending "rank"] foundCustomers) := by
  obtain ⟨-, -, h⟩ := breakTies_stable foundOrders [.ascending "price"] [.ascending "rank"]
    foundCustomers
  have hfound : ∀ a ∈ foundCustomers,
      foundOrders.get? a.1 = some ((foundOrders.get? a.1).getD .empty) := by
    simp only [foundCustomers, List.forall_mem_cons]
    exact ⟨rfl, rfl, rfl, nofun⟩
  obtain ⟨-, hstable, -⟩ := h (fun key => (foundOrders.get? key).getD .empty) hfound (by decide)
    (by decide) (by decide)
  exact ⟨by cbv, hstable⟩

end FederatedJoin.Shop
