-- SUMMARY: Of the rows with a join key, a key constraint holds of those grouped under its keys.
import FederatedJoin.Proofs.Attachments
import FederatedJoin.Proofs.Selection

/-!
# Key constraints

A key meets a row three times. It is read from a field of the row, it is compared
with that field by a condition, and it is looked up among the groups. Only the
comparison equates an integer with a double: to the key `1` a row with `1.0` is as
good as a row with `1`. Such a row has no join key, so it is fetched and left out of
every group. Among the rows with a join key the three agree, and `1`, `"1"` and `true`
are three keys.
-/

namespace FederatedJoin

/-! ## Values that equal a key -/

namespace Operand

/-- The value is a double that equals the key, an integer. -/
def isDoubleOf (value : Operand) (key : JoinKey) : Bool :=
  match value, key with
  | .float x, .int n => x.same (.ofInt n.toInt)
  | _, _ => false

theorem equals_ofJoinKey (value : Operand) (key : JoinKey) :
    value.equals (.ofJoinKey key) = true ↔
      value.toJoinKey? = some key ∨ value.isDoubleOf key = true := by
  cases value <;> cases key <;> simp [equals, same, ofJoinKey, toJoinKey?, isDoubleOf]

end Operand

/-! ## Rows of the keys -/

namespace Condition

variable {field : String} {row : Record}

theorem holds_equal_ofJoinKey (field : String) (key : JoinKey) (row : Record) :
    (equal field (.ofJoinKey key)).holds row = true ↔
      row.joinKey? field = some key ∨ (row.value field).isDoubleOf key = true := by
  rw [← Record.toJoinKey?_value, ← Operand.equals_ofJoinKey]
  cases hvalue : row.value field with
  | null =>
    rw [Operand.equals_ofJoinKey]
    simp [holds, equal, hvalue, Operand.isNull, holdsOfNull, Operand.toJoinKey?,
      Operand.isDoubleOf]
  | _ => simp [holds, equal, hvalue, Operand.isNull, compares]

/-- The constraint holds of the rows that have one of the keys and of those with a double that
equals one. -/
theorem holds_oneOf_ofJoinKey (field : String) (keys : List JoinKey) (row : Record) :
    (oneOf field (keys.map .ofJoinKey)).holds row = true ↔
      ∃ key ∈ keys, row.joinKey? field = some key ∨ (row.value field).isDoubleOf key = true := by
  simp only [holds_oneOf, List.any_map, List.any_eq_true, Function.comp_apply,
    holds_equal_ofJoinKey]

/-- A field that reads as null is never one of the keys. -/
theorem holds_oneOf_of_null (h : row.value field = .null) (keys : List JoinKey) :
    (oneOf field (keys.map .ofJoinKey)).holds row = false := by
  rw [← Bool.not_eq_true, holds_oneOf_ofJoinKey, ← Record.toJoinKey?_value, h]
  rintro ⟨key, -, hkey | hkey⟩
  · cases hkey
  · cases hkey

theorem field_oneOf (field : String) (operands : List Operand) :
    (oneOf field operands).field = field := by
  match operands with
  | [] => rfl
  | [_] => rfl
  | _ :: _ :: _ => rfl

theorem operator_oneOf (field : String) (operands : List Operand) :
    (oneOf field operands).operator = if operands.length = 1 then .equal else .among := by
  match operands with
  | [] => rfl
  | [_] => rfl
  | _ :: _ :: _ => simp [oneOf, among]

end Condition

/-! ## Fetched groups -/

namespace RelatedRows

/-- Of what a constraint to some keys fetches, the groups of these keys are complete and there are
no others. -/
theorem group_constrainKeys {c : Collection} (hc : c.FitsWord) (relation : Relation)
    (filters : List Condition) (keys : List JoinKey) (key : JoinKey) :
    (ofRecords relation (c.getMany (({ Request.empty with filters } : Request).constrainKeys
        relation.relationKeyField keys)).data).group key =
      if key ∈ keys then
        (ofRecords relation (c.getMany { Request.empty with filters }).data).group key
      else [] := by
  rw [group_ofRecords, group_ofRecords, Collection.data_getMany_eq_filter hc rfl rfl rfl,
    Collection.data_getMany_eq_filter hc rfl rfl rfl, List.filter_filter, List.filter_filter]
  have hholds {row : Record} (hrow : row.joinKey? relation.relationKeyField = some key) :=
    Condition.holds_oneOf_keys hrow keys
  split
  · next hkey =>
    refine congrArg Record.distinct (List.filter_congr fun row _ => ?_)
    by_cases hrow : row.joinKey? relation.relationKeyField = some key
    · rw [Request.holds_constrainKeys_of_filters rfl rfl, (hholds hrow).2 hkey, Bool.and_true]
    · simp [hrow]
  · next hkey =>
    rw [List.filter_eq_nil_iff.2]
    · rfl
    · intro row _
      rw [Request.holds_constrainKeys_of_filters rfl rfl]
      simp only [Bool.and_eq_true, decide_eq_true_eq]
      rintro ⟨hrow, -, hone⟩
      exact hkey ((hholds hrow).1 hone)

end RelatedRows

/-! ## One notion of equality -/

namespace Request

/-- The constraint to some keys is one more condition, an equality for a single key and membership
for several. Of a row with a join key it holds exactly when the key is one of them; a row whose
field is missing, null or an object fails it, and of the others only a double that equals a key
passes. A key is the same whether it is read from the field or from its value, and comes back from
the operand made of it, so that what is fetched and grouped are the rows of the keys. -/
theorem constrainKeys_agrees {c : Collection} (hc : c.FitsWord) (relation : Relation)
    (filters : List Condition) (field : String) (keys : List JoinKey) :
    (∃ constraint : Condition,
      (∀ q : Request, q.constrainKeys field keys =
        { q with filters := q.filters ++ [constraint] }) ∧
      constraint.field = field ∧
      constraint.operator = (if keys.length = 1 then .equal else .among) ∧
      (∀ row key, row.joinKey? field = some key → (constraint.holds row = true ↔ key ∈ keys)) ∧
      (∀ row, row.get? field = none ∨ row.get? field = some .null ∨
        (∃ fields, row.get? field = some (.object fields)) → constraint.holds row = false) ∧
      ∀ row, constraint.holds row = true ↔ ∃ key ∈ keys,
        row.joinKey? field = some key ∨ (row.value field).isDoubleOf key = true) ∧
    (∀ j, JoinKey.ofJson? j = (Operand.ofJson j).toJoinKey?) ∧
    (∀ key, (Operand.ofJoinKey key).toJoinKey? = some key) ∧
    ∀ key, (RelatedRows.ofRecords relation (c.getMany
        (({ Request.empty with filters } : Request).constrainKeys
          relation.relationKeyField keys)).data).group key =
      if key ∈ keys then
        (RelatedRows.ofRecords relation (c.getMany { Request.empty with filters }).data).group key
      else [] := by
  refine ⟨⟨.oneOf field (keys.map .ofJoinKey), fun q => rfl, ?_, ?_, ?_, ?_, ?_⟩, ?_, ?_, ?_⟩
  · exact Condition.field_oneOf field _
  · rw [Condition.operator_oneOf, List.length_map]
  · exact fun row key hrow => Condition.holds_oneOf_keys hrow keys
  · intro row hrow
    refine Condition.holds_oneOf_of_null ?_ keys
    rcases hrow with hrow | hrow | ⟨fields, hrow⟩ <;> rw [Record.value, hrow] <;> rfl
  · exact Condition.holds_oneOf_ofJoinKey field keys
  · exact fun j => (Operand.toJoinKey?_ofJson j).symm
  · exact Operand.toJoinKey?_ofJoinKey
  · exact RelatedRows.group_constrainKeys hc relation filters keys

end Request

namespace Shop

/-- Orders whose customer is `1`, `"1"`, `true` and `1.0`, and one that names none. -/
def mixedOrders : Collection :=
  ⟨"orders", [.int64 1, .string "1", .bool true,
    .number (.double ⟨4607182418800017408⟩ (by decide)), .null].map
      (Record.empty.set "customer")⟩

theorem constrainKeys_mixedOrders :
    mixedOrders.FitsWord ∧
    (RelatedRows.ofRecords orders (mixedOrders.getMany
      (Request.empty.constrainKeys "customer" [.int 1, .bool true])).data).group (.int 1) =
        [Record.empty.set "customer" (.int64 1)] ∧
    (RelatedRows.ofRecords orders (mixedOrders.getMany
      (Request.empty.constrainKeys "customer" [.int 1, .bool true])).data).group (.string "1") =
        [] := by
  have hfit : mixedOrders.FitsWord := show 5 < 18446744073709551616 by decide
  obtain ⟨-, -, -, hgroup⟩ :=
    Request.constrainKeys_agrees hfit orders [] "customer" [.int 1, .bool true]
  have hall : (RelatedRows.ofRecords orders (mixedOrders.getMany .empty).data).group (.int 1) =
      [Record.empty.set "customer" (.int64 1)] := by
    rw [RelatedRows.group_ofRecords, Collection.data_getMany_eq_filter hfit rfl rfl rfl]
    rfl
  exact ⟨hfit, (hgroup (.int 1)).trans hall, hgroup (.string "1")⟩

end Shop

end FederatedJoin
