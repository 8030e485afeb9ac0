-- SUMMARY: A collection answers every window of a request out of one list of its matching rows.
import FederatedJoin.Proofs.Answers
import FederatedJoin.Proofs.Paging
import FederatedJoin.Proofs.SortOrder

/-!
# Pages of a collection

Whatever its window, a request has one answer: the matching rows, each as often
as it is stored, sorted by the request's keys and otherwise in storage order.
Pages are windows of that answer, and consecutive windows miss no row and repeat
none.
-/

namespace FederatedJoin

namespace Request

/-- The same request for everything. -/
def unwindowed (r : Request) : Request := { r with page := none, offset := none, limit := none }

/-- The same request at an offset; a page number no longer counts. -/
def windowed (r : Request) (offset limit : UInt64) : Request :=
  { r with offset := some offset, limit := some limit }

end Request

namespace Collection

open Sorting

/-- The rows on which the request's search tree holds, as they are stored. -/
def matching (c : Collection) (r : Request) : List Record :=
  c.rows.filter (r.searchTree.holds ·)

/-- The windows at the first `n` multiples of the limit, one after the other. -/
def tiles (c : Collection) (r : Request) (limit : UInt64) (n : Nat) : List Record :=
  (List.range n).flatMap fun k =>
    (c.getMany (r.windowed (UInt64.ofNat (k * limit.toNat)) limit)).data

/-- What a collection shows of its answer to a request. -/
structure Shows (c : Collection) (r : Request) (answer : List Record) : Prop where
  perm : answer.Perm (c.matching r)
  sorted : TransitiveOn (SortKey.compareAll r.sorts) (c.matching r) →
    StablySorted (SortKey.compareAll r.sorts) (c.matching r) answer
  stored : r.sorts = [] → answer = c.matching r
  window : ∀ page offset limit, let q := { r with page, offset, limit }
    (c.getMany q).data = (answer.drop q.resolvedOffset.toNat).take
      (limit.elim answer.length UInt64.toNat)
  total : ∀ page offset limit,
    (c.getMany { r with page, offset, limit }).total.toNat = answer.length
  tiles : ∀ limit : UInt64, limit ≠ 0 →
    c.tiles r limit (answer.length / limit.toNat + 1) = answer
  first : ∀ row, c.getOne r = .ok row ↔ answer.head? = some row
  notFound : c.getOne r = .error (.notFound c.entity) ↔ answer = []

variable {c : Collection} {r : Request}

theorem select_eq_sort_matching (c : Collection) (r : Request) :
    c.select r = SortKey.sort r.sorts (c.matching r) := rfl

/-- Requests that differ in their windows have one answer. -/
theorem select_congr {q : Request} (hsorts : q.sorts = r.sorts)
    (htree : q.searchTree = r.searchTree) : c.select q = c.select r := by
  rw [select_eq_sort_matching, select_eq_sort_matching, matching, matching, hsorts, htree]

theorem data_getMany (h : c.FitsWord) (r : Request) :
    (c.getMany r).data = ((c.select r).drop r.resolvedOffset.toNat).take
      (r.limit.elim (c.select r).length UInt64.toNat) := by
  cases hlimit : r.limit with
  | some limit => exact data_getMany_of_limit hlimit c
  | none =>
    have htotal := toNat_total_getMany h r
    simp only [getMany, Page.total_ofWindow] at htotal
    simp only [getMany, Page.data_ofWindow, hlimit, Option.getD_none, Option.elim_none, htotal]

/-- The offsets of the windows up to the total are words. -/
theorem toNat_tile {limit : UInt64} {size k : Nat} (hsize : size < 18446744073709551616)
    (hk : k < size / limit.toNat + 1) :
    (UInt64.ofNat (k * limit.toNat)).toNat = k * limit.toNat := by
  have hle : k * limit.toNat ≤ size := by
    apply Nat.le_trans (Nat.mul_le_mul_right _ (Nat.le_of_lt_succ hk))
    exact Nat.div_mul_le_self ..
  rw [UInt64.toNat_ofNat']
  omega

theorem tiles_eq (h : c.FitsWord) (r : Request) {limit : UInt64} (hlimit : limit ≠ 0) :
    c.tiles r limit ((c.select r).length / limit.toNat + 1) = c.select r := by
  have hsize : (c.select r).length < 18446744073709551616 :=
    Nat.lt_of_le_of_lt (length_select_le c r) h
  have hpages : c.tiles r limit ((c.select r).length / limit.toNat + 1) =
      Paging.pages (fun _ => c.select r) limit.toNat ((c.select r).length / limit.toNat + 1) := by
    apply List.flatMap_congr
    intro k hk
    rw [data_getMany_of_limit (q := r.windowed _ _) rfl, select_congr (r := r) rfl rfl]
    show ((c.select r).drop (UInt64.ofNat (k * limit.toNat)).toNat).take _ = _
    rw [toNat_tile hsize (List.mem_range.1 hk)]
  have hpos : 0 < limit.toNat := Nat.pos_of_ne_zero fun hzero => hlimit (UInt64.toNat_inj.1 hzero)
  rw [hpages, Paging.pages_const, List.take_of_length_le]
  rw [Nat.add_mul, Nat.one_mul]
  exact Nat.le_of_lt (Nat.lt_div_mul_add hpos)

theorem getOne_eq_ok_iff {row : Record} :
    c.getOne r = .ok row ↔ (c.select r).head? = some row := by
  unfold getOne
  cases c.select r with
  | nil => exact ⟨nofun, nofun⟩
  | cons first rest =>
    simp only [Except.ok.injEq, List.head?_cons, Option.some.injEq]

theorem getOne_eq_notFound_iff : c.getOne r = .error (.notFound c.entity) ↔ c.select r = [] := by
  unfold getOne
  cases c.select r with
  | nil => exact ⟨fun _ => rfl, fun _ => rfl⟩
  | cons first rest => exact ⟨nofun, nofun⟩

/-- A collection answers every window, and the request for one row, out of the list that it answers
without a window. -/
theorem shows_getMany_unwindowed (h : c.FitsWord) (r : Request) :
    c.Shows r (c.getMany r.unwindowed).data := by
  have hanswer : (c.getMany r.unwindowed).data = c.select r :=
    data_getMany_of_unlimited h (q := r.unwindowed) rfl rfl
  rw [hanswer]
  exact {
    perm := List.mergeSort_perm ..
    sorted := stablySorted_mergeSort
    stored := fun hsorts => by rw [select_eq_sort_matching, hsorts, SortKey.sort_nil]
    window := fun page offset limit => data_getMany h { r with page, offset, limit }
    total := fun page offset limit => toNat_total_getMany h { r with page, offset, limit }
    tiles := fun _ => tiles_eq h r
    first := fun _ => getOne_eq_ok_iff
    notFound := getOne_eq_notFound_iff }

end Collection

namespace Shop

/-- Four customers, one of them without a rank. -/
def rankedCustomers : Collection :=
  ⟨"customer", [customer 1 5, customer 2 3, record [("id", 3)], customer 4 5]⟩

/-- The second page of the customers with a rank, the least one first. -/
def secondByRank : Request :=
  { Request.empty with
    filters := [⟨"rank", .notNull, .null, none⟩]
    sorts := [.ascending "rank"]
    page := some 2
    limit := some 2 }

theorem shows_rankedCustomers :
    rankedCustomers.Shows secondByRank [customer 2 3, customer 1 5, customer 4 5] ∧
    (rankedCustomers.getMany secondByRank).data = [customer 4 5] := by
  have hanswer : (rankedCustomers.getMany secondByRank.unwindowed).data =
      [customer 2 3, customer 1 5, customer 4 5] := by cbv
  have hfit : rankedCustomers.FitsWord := show 4 < 18446744073709551616 by decide
  have hshows := Collection.shows_getMany_unwindowed hfit secondByRank
  rw [hanswer] at hshows
  exact ⟨hshows, hshows.window (some 2) none (some 2)⟩

end Shop

end FederatedJoin
