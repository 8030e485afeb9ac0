-- SUMMARY: What collections answer: key constraints, the meaning of the two lists, and windows.
import FederatedJoin.Collection.Basic
import FederatedJoin.Proofs.FirstOccurrence

/-!
# Selection

A request of the federation has no search tree of its own, so the rows that a
collection selects are decided by the two lists of conditions. A key constraint
joins the first list. Of a row with a join key it holds exactly when the key is
asked for, and so which of several keys are asked for together does not matter
to a row of one of them.
-/

namespace FederatedJoin

/-! ## Key constraints -/

namespace Operand

theorem eq_ofJoinKey {value : Operand} {key : JoinKey} (h : value.toJoinKey? = some key) :
    value = .ofJoinKey key := by
  cases value <;> cases h <;> rfl

/-- Operands made of keys are equal when the keys are: `1`, `"1"` and `true` differ. -/
theorem equals_ofJoinKey_iff (a b : JoinKey) :
    (ofJoinKey a).equals (.ofJoinKey b) = true ↔ a = b := by
  cases a <;> cases b <;> simp [ofJoinKey, equals, same]

end Operand

namespace Condition

theorem isNull_eq_false_of_joinKey {row : Record} {field : String} {key : JoinKey}
    (h : row.joinKey? field = some key) : (row.value field).isNull = false := by
  rw [← Record.toJoinKey?_value] at h
  cases hv : row.value field <;> rw [hv] at h <;> first | rfl | cases h

/-- A constraint to several operands holds when an equality with one of them does. -/
theorem holds_oneOf (field : String) (operands : List Operand) (row : Record) :
    (oneOf field operands).holds row = operands.any fun x => (equal field x).holds row := by
  have hamong : (among field operands).holds row =
      operands.any fun x => (equal field x).holds row := by
    cases hnull : (row.value field).isNull with
    | true => simp [holds, among, equal, hnull, holdsOfNull]
    | false => simp [holds, among, equal, hnull, compares, Operand.items]
  match operands with
  | [] => exact hamong
  | [x] => simp [oneOf]
  | _ :: _ :: _ => exact hamong

theorem holds_equal_key {row : Record} {field : String} {key : JoinKey}
    (h : row.joinKey? field = some key) (other : JoinKey) :
    (equal field (.ofJoinKey other)).holds row = true ↔ other = key := by
  have hnull := isNull_eq_false_of_joinKey h
  have hvalue : row.value field = .ofJoinKey key :=
    Operand.eq_ofJoinKey (by rw [Record.toJoinKey?_value, h])
  rw [hvalue] at hnull
  simpa [holds, equal, hvalue, hnull, compares] using
    (Operand.equals_ofJoinKey_iff key other).trans eq_comm

/-- Of a row with a join key the constraint holds when that key is asked for. -/
theorem holds_oneOf_keys {row : Record} {field : String} {key : JoinKey}
    (h : row.joinKey? field = some key) (keys : List JoinKey) :
    (oneOf field (keys.map .ofJoinKey)).holds row = true ↔ key ∈ keys := by
  simp only [holds_oneOf, List.any_map, List.any_eq_true]
  constructor
  · rintro ⟨other, hmem, hother⟩
    exact (holds_equal_key h other).1 hother ▸ hmem
  · exact fun hmem => ⟨key, hmem, (holds_equal_key h key).2 rfl⟩

/-- Of a row with a join key an equality with one of the keys holds when it is one of them. -/
theorem any_equal_key {row : Record} {field : String} {key : JoinKey}
    (h : row.joinKey? field = some key) (keys : List JoinKey) :
    (keys.any fun k => (equal field (.ofJoinKey k)).holds row) = decide (key ∈ keys) := by
  rw [Bool.eq_iff_iff, decide_eq_true_iff, ← holds_oneOf_keys h, holds_oneOf, List.any_map]
  rfl

end Condition

/-! ## The two lists -/

namespace SearchTree

theorem holds_all (r : Record) (conditions : List Condition) :
    (all conditions).holds r = conditions.all (·.holds r) := by
  have hand : (SearchTree.and (conditions.map leaf)).holds r = conditions.all (·.holds r) := by
    simp only [holds, allHold_eq_all, List.all_map]
    exact congrArg (List.all conditions) (funext fun c => holds_leaf r c)
  rcases conditions with _ | ⟨c, _ | ⟨d, rest⟩⟩
  · exact hand
  · simp [all]
  · exact hand

end SearchTree

namespace Request

/-- With the first list alone, all its conditions have to hold. -/
theorem holds_searchTree_of_filters {q : Request} (hor : q.orFilters = [])
    (hsearch : q.search = none) (row : Record) :
    q.searchTree.holds row = q.filters.all (·.holds row) := by
  simp only [searchTree, hsearch, listTree, hor]
  cases hf : q.filters with
  | nil => simp [SearchTree.holds, SearchTree.allHold]
  | cons c rest => simp [SearchTree.holds_all]

/-- With a first list that is not empty, all of it has to hold, or all of the second. -/
theorem holds_searchTree_of_cons {q : Request} {c : Condition} {rest : List Condition}
    (hf : q.filters = c :: rest) (hsearch : q.search = none) (row : Record) :
    q.searchTree.holds row = ((c :: rest).all (·.holds row) ||
      (!q.orFilters.isEmpty && q.orFilters.all (·.holds row))) := by
  simp only [searchTree, hsearch, listTree, hf]
  cases ho : q.orFilters with
  | nil => simp [SearchTree.holds_all]
  | cons d more =>
    simp [SearchTree.holds, SearchTree.anyHolds, SearchTree.holds_all]

theorem holds_searchTree_constrain {q : Request} (hsearch : q.search = none) (field : String)
    (operands : List Operand) (row : Record) :
    (q.constrain field operands).searchTree.holds row =
      ((q.filters.all (·.holds row) && (Condition.oneOf field operands).holds row) ||
        (!q.orFilters.isEmpty && q.orFilters.all (·.holds row))) := by
  have hall : (q.filters ++ [Condition.oneOf field operands]).all (·.holds row) =
      (q.filters.all (·.holds row) && (Condition.oneOf field operands).holds row) := by
    simp [List.all_append]
  cases hf : q.filters ++ [Condition.oneOf field operands] with
  | nil => simp at hf
  | cons c rest =>
    rw [holds_searchTree_of_cons (q := q.constrain field operands) hf hsearch row, ← hf, hall]
    rfl

/-- To a row of one of the keys it does not matter which other keys are asked for. -/
theorem holds_constrainKeys_congr {q : Request} (hsearch : q.search = none) {field : String}
    {row : Record} {key : JoinKey} (hrow : row.joinKey? field = some key)
    {keys others : List JoinKey} (hkeys : key ∈ keys) (hothers : key ∈ others) :
    (q.constrainKeys field keys).searchTree.holds row =
      (q.constrainKeys field others).searchTree.holds row := by
  have hk := (Condition.holds_oneOf_keys hrow keys).2 hkeys
  have ho := (Condition.holds_oneOf_keys hrow others).2 hothers
  rw [constrainKeys, constrainKeys, holds_searchTree_constrain hsearch,
    holds_searchTree_constrain hsearch, hk, ho]

/-- Without a second list the constraint is one more condition. -/
theorem holds_constrainKeys_of_filters {q : Request} (hor : q.orFilters = [])
    (hsearch : q.search = none) (field : String) (keys : List JoinKey) (row : Record) :
    (q.constrainKeys field keys).searchTree.holds row =
      (q.searchTree.holds row && (Condition.oneOf field (keys.map .ofJoinKey)).holds row) := by
  rw [constrainKeys, holds_searchTree_constrain hsearch, hor,
    holds_searchTree_of_filters hor hsearch]
  simp

end Request

/-! ## Selected rows -/

/-- Without sort keys the rows stay where they are. -/
theorem SortKey.sort_nil (rows : List Record) : sort [] rows = rows :=
  List.mergeSort_of_pairwise (List.pairwise_of_forall fun _ _ => rfl)

namespace Collection

/-- The number of rows is a word. -/
def FitsWord (c : Collection) : Prop := c.rows.length < 18446744073709551616

theorem mem_select {c : Collection} {q : Request} {row : Record} :
    row ∈ c.select q ↔ row ∈ c.rows ∧ q.searchTree.holds row = true := by
  simp only [select, SortKey.sort, List.mem_mergeSort, List.mem_filter]

theorem length_select_le (c : Collection) (q : Request) : (c.select q).length ≤ c.rows.length := by
  simp only [select, SortKey.sort, List.length_mergeSort]
  exact List.length_filter_le ..

theorem toNat_total_getMany {c : Collection} (h : c.FitsWord) (q : Request) :
    (c.getMany q).total.toNat = (c.select q).length := by
  have hle := length_select_le c q
  have hlt : c.rows.length < 18446744073709551616 := h
  simp only [getMany, Page.total_ofWindow, UInt64.toNat_ofNat']
  omega

/-- A limited request gets a window of the selected rows. -/
theorem data_getMany_of_limit {q : Request} {limit : UInt64} (h : q.limit = some limit)
    (c : Collection) :
    (c.getMany q).data = ((c.select q).drop q.resolvedOffset.toNat).take limit.toNat := by
  simp [getMany, h]

/-- A request without a window gets every selected row. -/
theorem data_getMany_of_unlimited {c : Collection} (hc : c.FitsWord) {q : Request}
    (hlimit : q.limit = none) (hoffset : q.offset = none) : (c.getMany q).data = c.select q := by
  have htotal := toNat_total_getMany hc q
  have hdata : (c.getMany q).data = (c.select q).take (c.getMany q).total.toNat := by
    simp [getMany, hlimit, hoffset, Request.resolvedOffset]
  simp only [hdata, htotal, List.take_length]

/-- A request that sorts nothing and has no window gets the rows it holds of, as they are stored. -/
theorem data_getMany_eq_filter {c : Collection} (hc : c.FitsWord) {q : Request}
    (hsorts : q.sorts = []) (hlimit : q.limit = none) (hoffset : q.offset = none) :
    (c.getMany q).data = c.rows.filter (q.searchTree.holds ·) := by
  rw [data_getMany_of_unlimited hc hlimit hoffset, select, hsorts, SortKey.sort_nil]

/-- Asked for several keys at once, a collection has a row of one of them exactly
when it has one asked for that key alone. -/
theorem mem_joinKeys_constrained {c : Collection} (hc : c.FitsWord) {q : Request}
    (hsearch : q.search = none) (hlimit : q.limit = none) (hoffset : q.offset = none)
    (field : String) {keys : List JoinKey} {key : JoinKey} (hkey : key ∈ keys) :
    key ∈ Record.joinKeys (c.getMany (q.constrainKeys field keys)).data field ↔
      key ∈ Record.joinKeys (c.getMany (q.constrainKeys field [key])).data field := by
  rw [data_getMany_of_unlimited (q := q.constrainKeys field keys) hc hlimit hoffset,
    data_getMany_of_unlimited (q := q.constrainKeys field [key]) hc hlimit hoffset]
  simp only [Record.mem_joinKeys, mem_select]
  constructor
  · rintro ⟨row, ⟨hrow, hholds⟩, hjoin⟩
    rw [Request.holds_constrainKeys_congr hsearch hjoin hkey List.mem_cons_self] at hholds
    exact ⟨row, ⟨hrow, hholds⟩, hjoin⟩
  · rintro ⟨row, ⟨hrow, hholds⟩, hjoin⟩
    rw [← Request.holds_constrainKeys_congr hsearch hjoin hkey List.mem_cons_self] at hholds
    exact ⟨row, ⟨hrow, hholds⟩, hjoin⟩

end Collection

end FederatedJoin
