-- SUMMARY: Sort keys and the order of records they give.
import FederatedJoin.Operand.Order
import FederatedJoin.Record

/-!
# Sort keys

Records are ordered by the first key on which they differ; nulls come first
when ascending and last when descending. Sorting is stable.
-/

namespace FederatedJoin

inductive Direction where
  | ascending | descending
  deriving DecidableEq, Inhabited

structure SortKey where
  field : String
  direction : Direction
  /-- The relation that the field belongs to; without one it is the root's. -/
  relation : Option String
  deriving DecidableEq, Inhabited

namespace SortKey

/-- The same key without its tag. -/
def untagged (key : SortKey) : SortKey := { key with relation := none }

def compare (key : SortKey) (a b : Record) : Ordering :=
  let order := (a.value key.field).compareNullsFirst (b.value key.field)
  match key.direction with
  | .ascending => order
  | .descending => order.swap

def compareAll (keys : List SortKey) (a b : Record) : Ordering :=
  match keys with
  | [] => .eq
  | key :: rest => (key.compare a b).then (compareAll rest a b)

def sort (keys : List SortKey) (rows : List Record) : List Record :=
  rows.mergeSort fun a b => (compareAll keys a b).isLE

end SortKey

end FederatedJoin
