-- SUMMARY: Join keys, the values that can identify a record on one side of a join.
import FederatedJoin.Json.Printer

/-!
# Join keys

A join matches two records by a boolean, a 64-bit integer or a string. Nothing
else identifies a record: a field that is null, a double, a list or an object
gives no key, so `1`, `1.0`, `"1"` and `true` are never confused.
-/

namespace FederatedJoin

inductive JoinKey where
  | bool (value : Bool)
  | int (value : Int64)
  | string (value : String)
  deriving DecidableEq, Inhabited

namespace JoinKey

def ofJson? : Json → Option JoinKey
  | .bool b => some (.bool b)
  | .number n => n.toInt64?.map .int
  | .string s => some (.string s)
  | _ => none

/-- Booleans before integers before strings. -/
def compare : JoinKey → JoinKey → Ordering
  | .bool a, .bool b => Ord.compare a b
  | .bool _, _ => .lt
  | _, .bool _ => .gt
  | .int a, .int b => Ord.compare a.toInt b.toInt
  | .int _, _ => .lt
  | _, .int _ => .gt
  | .string a, .string b => Ord.compare a b

def text : JoinKey → String
  | .bool true => "true"
  | .bool false => "false"
  | .int n => String.ofList (Json.integerChars n.toInt)
  | .string s => s

end JoinKey

end FederatedJoin
