-- SUMMARY: Operands, the values that conditions compare fields with.
import FederatedJoin.JoinKey

/-!
# Operands

A field is compared with an operand: null, a scalar, or a list. Reading a JSON
value as an operand loses objects, which read as null, and turns integers
beyond a signed word into doubles.
-/

namespace FederatedJoin

inductive Operand where
  | null
  | bool (value : Bool)
  | int (value : Int64)
  | float (value : Double)
  | string (value : String)
  | list (items : List Operand)
  deriving Inhabited

namespace Operand

/-! ## Parts -/

def isNull : Operand → Bool
  | .null => true
  | _ => false

def isList : Operand → Bool
  | .list _ => true
  | _ => false

def toBool? : Operand → Option Bool
  | .bool b => some b
  | _ => none

def toInt64? : Operand → Option Int64
  | .int n => some n
  | _ => none

/-- An integer reads as the nearest double. -/
def toDouble? : Operand → Option Double
  | .int n => some (.ofInt n.toInt)
  | .float x => some x
  | _ => none

def toString? : Operand → Option String
  | .string s => some s
  | _ => none

/-- The items of a list; anything else is a list of itself. -/
def items : Operand → List Operand
  | .list items => items
  | x => [x]

def toJoinKey? : Operand → Option JoinKey
  | .bool b => some (.bool b)
  | .int n => some (.int n)
  | .string s => some (.string s)
  | _ => none

def ofJoinKey : JoinKey → Operand
  | .bool b => .bool b
  | .int n => .int n
  | .string s => .string s

/-! ## Reading and writing JSON -/

def ofNumber (n : Json.Number) : Operand :=
  match n.toInt64? with
  | some i => .int i
  | none => .float n.toDouble

mutual

def ofJson : Json → Operand
  | .null => .null
  | .bool b => .bool b
  | .number n => ofNumber n
  | .string s => .string s
  | .array items => .list (ofItems items)
  | .object _ => .null

def ofItems : List Json → List Operand
  | [] => []
  | item :: rest => ofJson item :: ofItems rest

end

mutual

/-- A double that is not finite has no JSON number and is written as null. -/
def toJson : Operand → Json
  | .null => .null
  | .bool b => .bool b
  | .int n => .int64 n
  | .float x => ((Json.Number.ofDouble? x).map .number).getD .null
  | .string s => .string s
  | .list items => .array (toItems items)

def toItems : List Operand → List Json
  | [] => []
  | item :: rest => toJson item :: toItems rest

end

/-! ## Keys -/

@[simp] theorem toJoinKey?_ofJoinKey (key : JoinKey) : (ofJoinKey key).toJoinKey? = some key := by
  cases key <;> rfl

theorem toJoinKey?_ofJson (j : Json) : (ofJson j).toJoinKey? = JoinKey.ofJson? j := by
  cases j with
  | number n =>
    simp only [ofJson, ofNumber, JoinKey.ofJson?]
    cases n.toInt64? <;> rfl
  | _ => rfl

end Operand

end FederatedJoin
