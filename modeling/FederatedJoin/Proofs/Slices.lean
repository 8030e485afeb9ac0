-- SUMMARY: The slices that discovered keys and found roots are cut into lie within their lists.
import FederatedJoin.Proofs.FirstOccurrence
import FederatedJoin.Proofs.Loops
import FederatedJoin.Proofs.Unguarded

/-!
# Slices

Discovered keys and found roots are cut at numbers that are counted as the loops go:
the keys at the first one whose root was not asked for, and the roots at the start and
at the stop of each run of tied ones. Discovery never has fewer keys than before, so
the keys that were asked for are always among them. A run stops at the end of the list
at the latest, and the next one starts there.
-/

namespace FederatedJoin

open Unguarded

/-! ## Keys -/

section Keys

variable {relations : List Relation} {plan : Plan relations} {driving : RelationId relations}
  {narrowing : List (RelationId relations)}

theorem Discovery.returns_readWindow_keys (d : Discovery) :
    Fetch.Returns (d.readWindow plan driving narrowing) fun d' =>
      d'.keys.Nodup ∧ (d.keys.Nodup → d.keys <+: d'.keys) := by
  refine Fetch.returns_bind fun page => Fetch.returns_bind fun keys => Fetch.returns_pure ?_
  refine ⟨FirstOccurrence.nodup_eraseDups _, fun hnodup => ?_⟩
  have hknown := FirstOccurrence.eraseDups_mono (List.prefix_append d.keys keys)
  rwa [FirstOccurrence.eraseDups_of_nodup hnodup] at hknown

namespace Execution

/-- The keys that were asked for are the first of those known. -/
structure Gathering.Counts (g : Gathering) : Prop where
  nodup : g.discovery.keys.Nodup
  fetched_le : g.fetched ≤ g.discovery.keys.length

theorem returns_settle_counts {g : Gathering} (h : g.Counts) :
    Fetch.Returns (settle plan driving g) Gathering.Counts := by
  unfold settle
  split
  · exact Fetch.returns_pure h
  · exact Fetch.returns_bind fun page => Fetch.returns_pure ⟨h.nodup, Nat.le_refl _⟩

namespace Scan

variable {target budget : Nat}

theorem returns_turn_counts {s : Scan} (h : s.gathering.Counts) :
    Fetch.Returns (turn plan driving narrowing target budget s)
      (Sum.elim (·.gathering.Counts) Gathering.Counts) := by
  unfold turn
  split
  · refine (Discovery.returns_readWindow_keys _).bind fun d hd => Fetch.returns_pure ?_
    exact ⟨hd.1, Nat.le_trans h.fetched_le (hd.2 h.nodup).length_le⟩
  · split
    · exact Fetch.returns_pure h
    · refine (returns_settle_counts h).bind fun g hg => ?_
      split
      · exact Fetch.returns_pure hg
      · exact Fetch.returns_pure hg

theorem counts_of_reaches {start s : Scan} {b : Backend relations} {t : List (Call relations)}
    (hstart : start.gathering.Counts)
    (h : Fetch.Reaches (turn plan driving narrowing target budget) b start s t) :
    s.gathering.Counts := by
  induction h with
  | start => exact hstart
  | next _ hturn ih => exact returns_turn_counts ih _ _ _ _ hturn

theorem counts_start (plan : Plan relations) (limits : Limits) :
    (start plan limits).gathering.Counts := ⟨List.nodup_nil, Nat.le_refl 0⟩

end Scan

end Execution

end Keys

/-! ## Runs of tied roots -/

namespace Ties

variable {α : Type} (tied le : α → α → Bool)

/-- Where the run that starts at `start` stops, when it goes on at least up to `stop`. -/
def runStop (items : List α) (start stop : Nat) : Unguarded Nat :=
  if stop < items.length then do
    let head ← read items start
    let item ← read items stop
    if tied head item then runStop items start (stop + 1) else return stop
  else return stop
termination_by items.length - stop

/-- Sorts the runs from `start` on in place, at most as many as given. -/
def sortRuns : (left : Nat) → List α → (start : Nat) → Unguarded (List α)
  | 0, items, _ => return items
  | left + 1, items, start =>
    if start < items.length then do
      let stop ← runStop tied items start (start + 1)
      let run ← slice items start stop
      sortRuns left (items.take start ++ run.mergeSort le ++ items.drop stop) stop
    else return items

theorem runStop_eq {items : List α} {start : Nat} {head : α} (hhead : items[start]? = some head)
    {stop : Nat} {rest : List α} (hrest : items.drop stop = rest) :
    runStop tied items start stop = pure (stop + (splitRun tied head rest).1.length) := by
  induction rest generalizing stop with
  | nil =>
    rw [runStop, if_neg (Nat.not_lt.2 (List.drop_eq_nil_iff.1 hrest))]
    rfl
  | cons x rest ih =>
    have hstop : items[stop]? = some x := by
      rw [← List.head?_drop, hrest]
      rfl
    have hmore : items.drop (stop + 1) = rest := by
      rw [← List.tail_drop, hrest]
      rfl
    obtain ⟨hlt, -⟩ := List.getElem?_eq_some_iff.1 hstop
    rw [runStop, if_pos hlt, read_eq_pure hhead, pure_bind, read_eq_pure hstop, pure_bind, splitRun]
    split
    · rw [ih hmore, List.length_cons, Nat.add_right_comm]
      rfl
    · rfl

/-- The runs after the first are those of what the first leaves. -/
theorem snd_splitRun (head : α) (xs : List α) :
    (splitRun tied head xs).2 = runs tied (splitRun tied head xs).2.flatten := by
  induction xs with
  | nil => rfl
  | cons x rest ih =>
    rw [splitRun]
    split
    · exact ih
    · have hrest := flatten_splitRun tied x rest
      rw [List.flatten_cons, List.cons_append, hrest]
      rfl

theorem exists_splitRun_eq (head : α) (xs : List α) :
    ∃ run back, xs = run ++ back ∧ splitRun tied head xs = (run, runs tied back) :=
  ⟨(splitRun tied head xs).1, (splitRun tied head xs).2.flatten,
    (flatten_splitRun tied head xs).symm, Prod.ext rfl (snd_splitRun tied head xs)⟩

/-- One turn sorts one run, which stands in front of the rest afterwards. -/
theorem sortRuns_succ {left : Nat} {front back : List α} {head : α} {run : List α}
    (hstop : runStop tied (front ++ head :: run ++ back) front.length (front.length + 1) =
      pure (front ++ head :: run).length) :
    sortRuns tied le (left + 1) (front ++ head :: run ++ back) front.length =
      sortRuns tied le left (front ++ (head :: run).mergeSort le ++ back)
        (front ++ (head :: run).mergeSort le).length := by
  have hfront : (front ++ head :: run ++ back).take front.length = front := by
    rw [List.append_assoc, List.take_left]
  have hsorted : (front ++ (head :: run).mergeSort le).length = (front ++ head :: run).length := by
    rw [List.length_append, List.length_mergeSort, List.length_append]
  rw [sortRuns, if_pos (by simp), hstop, pure_bind, slice_append, pure_bind, hfront,
    List.drop_left, hsorted]

theorem sortRuns_append {left : Nat} {rest : List α} (hleft : rest.length ≤ left)
    (front : List α) : sortRuns tied le left (front ++ rest) front.length =
      pure (front ++ (runs tied rest).flatMap (·.mergeSort le)) := by
  induction left generalizing front rest with
  | zero =>
    cases List.length_eq_zero_iff.1 (Nat.le_zero.1 hleft)
    rfl
  | succ left ih =>
    cases rest with
    | nil =>
      rw [sortRuns, if_neg (by simp)]
      rfl
    | cons head rest =>
      -- one turn sorts the first run, and the induction is on what comes after it
      obtain ⟨run, back, rfl, hsplit⟩ := exists_splitRun_eq tied head rest
      have hhead : (front ++ head :: run ++ back)[front.length]? = some head := by simp
      have hrest : (front ++ head :: run ++ back).drop (front.length + 1) = run ++ back := by simp
      have hstop : runStop tied (front ++ head :: run ++ back) front.length (front.length + 1) =
          pure (front ++ head :: run).length := by
        rw [runStop_eq tied hhead hrest, hsplit, List.length_append, List.length_cons]
        exact congrArg pure (by dsimp only; omega)
      have hback : back.length ≤ left := by
        rw [List.length_cons, List.length_append] at hleft
        omega
      have hruns : runs tied (head :: (run ++ back)) = (head :: run) :: runs tied back := by
        rw [runs, hsplit]
      rw [hruns, ← List.cons_append, ← List.append_assoc, sortRuns_succ tied le hstop, ih hback,
        List.flatMap_cons, List.append_assoc]

end Ties

/-! ## The order of found roots -/

namespace Execution

variable {relations : List Relation}

/-- The fetched roots in the order of their keys, each run of tied ones sorted in place. -/
def orderedInPlace (plan : Plan relations) (g : Gathering) : Unguarded (List Record) := do
  let roots := g.discovery.keys.filterMap fun key => (g.found.get? key).map (key, ·)
  let roots ←
    if plan.sorts.rootSorts.isEmpty then pure roots
    else
      Ties.sortRuns (fun a b => Ties.tied g.discovery.ranks plan.sorts.relationKeys a.1 b.1)
        (fun a b => (SortKey.compareAll plan.sorts.rootSorts a.2 b.2).isLE) roots.length roots 0
  return roots.map (·.2)

theorem orderedInPlace_eq (plan : Plan relations) (g : Gathering) :
    orderedInPlace plan g = pure (ordered plan g) := by
  unfold orderedInPlace ordered
  dsimp only
  split
  · rfl
  · generalize (g.discovery.keys.filterMap fun key => (g.found.get? key).map (key, ·)) = roots
    have hsorted := Ties.sortRuns_append
      (fun a b => Ties.tied g.discovery.ranks plan.sorts.relationKeys a.1 b.1)
      (fun a b => (SortKey.compareAll plan.sorts.rootSorts a.2 b.2).isLE) (Nat.le_refl roots.length)
      []
    exact (congrArg (· >>= fun roots => pure (roots.map (·.2))) hsorted).trans (pure_bind ..)

end Execution

end FederatedJoin
