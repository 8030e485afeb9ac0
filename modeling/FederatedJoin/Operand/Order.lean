-- SUMMARY: Equality and order of operands.
import FederatedJoin.Operand.Basic

/-!
# Comparing operands

Two operands have an order only when both are numbers, both strings or both
booleans. Equality is finer than that order in two ways: it also holds between
nulls and between lists, and inside a list an integer never equals a double.
-/

namespace FederatedJoin.Operand

/-! ## Equality -/

mutual

/-- Equality of like with like: an integer never equals a double. -/
def same : Operand → Operand → Bool
  | .null, .null => true
  | .bool a, .bool b => a == b
  | .int a, .int b => a == b
  | .float a, .float b => a.same b
  | .string a, .string b => a == b
  | .list a, .list b => sameItems a b
  | _, _ => false

def sameItems : List Operand → List Operand → Bool
  | [], [] => true
  | a :: as, b :: bs => same a b && sameItems as bs
  | _, _ => false

end

/-- Equality of a field with an operand: an integer equals the double nearest to it. -/
def equals : Operand → Operand → Bool
  | .int a, .float b => (Double.ofInt a.toInt).same b
  | .float a, .int b => a.same (Double.ofInt b.toInt)
  | a, b => same a b

/-! ## Order -/

def compare? : Operand → Operand → Option Ordering
  | .int a, .int b => some (compare a.toInt b.toInt)
  | .int a, .float b => (Double.ofInt a.toInt).compare? b
  | .float a, .int b => a.compare? (Double.ofInt b.toInt)
  | .float a, .float b => a.compare? b
  | .string a, .string b => some (compare a b)
  | .bool a, .bool b => some (compare a b)
  | _, _ => none

/-- The order of sorting: nulls come first, and operands without an order tie. -/
def compareNullsFirst (a b : Operand) : Ordering :=
  match a.isNull, b.isNull with
  | true, true => .eq
  | true, false => .lt
  | false, true => .gt
  | false, false => (a.compare? b).getD .eq

end FederatedJoin.Operand
