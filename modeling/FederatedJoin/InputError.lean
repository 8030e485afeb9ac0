-- SUMMARY: Faults in the values that a request or a provider brings.
import FederatedJoin.Operator

/-!
# Input errors
-/

namespace FederatedJoin

/-- What an operator wants its operand to be. -/
inductive OperandShape where
  | list | range | string
  deriving DecidableEq

def OperandShape.text : OperandShape → String
  | .list => "a list"
  | .range => "[low, high]"
  | .string => "a string"

inductive InputError where
  /-- A record was to be made of a value of another kind. -/
  | notAnObject (found : String)
  /-- An operator cannot use the operand it was given. -/
  | operand (operator : Operator) (field : String) (expected : OperandShape)
  deriving DecidableEq

def InputError.message : InputError → String
  | .notAnObject found => "invalid entity: expected JSON object, got " ++ found
  | .operand operator field expected =>
    "invalid operand for " ++ operator.symbol ++ ": field '" ++ field ++ "' expects "
      ++ expected.text

end FederatedJoin
