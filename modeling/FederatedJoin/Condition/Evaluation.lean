-- SUMMARY: When a condition holds of a record.
import FederatedJoin.Condition.Basic
import FederatedJoin.Record

/-!
# Evaluating conditions

A null or missing field fails every comparison, and so satisfies exactly the
negated ones. Texts are compared by their characters.
-/

namespace FederatedJoin

namespace Condition

/-- Whether the characters of `part` stand next to each other somewhere in the text. -/
def occursIn (part : List Char) : List Char → Bool
  | [] => part.isEmpty
  | c :: rest => part.isPrefixOf (c :: rest) || occursIn part rest

/-- A test of two texts, which fails when either side is no text. -/
def textTest (test : List Char → List Char → Bool) (value operand : Operand) : Bool :=
  match value, operand with
  | .string s, .string part => test part.toList s.toList
  | _, _ => false

/-- A test of the order of two operands, which fails when they have none. -/
def orderTest (test : Ordering → Bool) (value operand : Operand) : Bool :=
  (value.compare? operand).any test

/-- Whether a value that is not null passes the comparison. -/
def compares (operator : Operator) (value operand : Operand) : Bool :=
  match operator with
  | .equal => value.equals operand
  | .notEqual => !value.equals operand
  | .greater => orderTest (·.isGT) value operand
  | .less => orderTest (·.isLT) value operand
  | .greaterEqual => orderTest (·.isGE) value operand
  | .lessEqual => orderTest (·.isLE) value operand
  | .startsWith => textTest List.isPrefixOf value operand
  | .endsWith => textTest List.isSuffixOf value operand
  | .contains => textTest occursIn value operand
  | .excludes => !textTest occursIn value operand
  | .among => operand.items.any value.equals
  | .notAmong => !operand.items.any value.equals
  | .isNull => false
  | .notNull => true
  | .between =>
    match operand.items with
    | [low, high] => orderTest (·.isGE) value low && orderTest (·.isLE) value high
    | _ => false

/-- The operators that hold of null. -/
def holdsOfNull : Operator → Bool
  | .isNull | .notEqual | .notAmong | .excludes => true
  | _ => false

def holds (c : Condition) (r : Record) : Bool :=
  let value := r.value c.field
  if value.isNull then holdsOfNull c.operator else compares c.operator value c.operand

@[simp] theorem holds_untagged (c : Condition) (r : Record) : c.untagged.holds r = c.holds r := rfl

end Condition

end FederatedJoin
