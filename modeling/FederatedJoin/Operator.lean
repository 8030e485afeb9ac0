-- SUMMARY: The operators of conditions and their symbols.

/-!
# Operators
-/

namespace FederatedJoin

inductive Operator where
  | equal | notEqual | greater | less | greaterEqual | lessEqual
  | startsWith | endsWith | contains | excludes
  | among | notAmong | isNull | notNull | between
  deriving DecidableEq, Inhabited

namespace Operator

def all : List Operator :=
  [.equal, .notEqual, .greater, .less, .greaterEqual, .lessEqual, .startsWith, .endsWith,
    .contains, .excludes, .among, .notAmong, .isNull, .notNull, .between]

def symbol : Operator → String
  | .equal => "$eq"
  | .notEqual => "$ne"
  | .greater => "$gt"
  | .less => "$lt"
  | .greaterEqual => "$gte"
  | .lessEqual => "$lte"
  | .startsWith => "$starts"
  | .endsWith => "$ends"
  | .contains => "$cont"
  | .excludes => "$excl"
  | .among => "$in"
  | .notAmong => "$notin"
  | .isNull => "$isnull"
  | .notNull => "$notnull"
  | .between => "$between"

def ofSymbol? (s : String) : Option Operator := all.find? (·.symbol = s)

/-- Whether the operand is ignored. -/
def isUnary : Operator → Bool
  | .isNull | .notNull => true
  | _ => false

theorem ofSymbol?_symbol (op : Operator) : ofSymbol? op.symbol = some op := by
  cases op <;> decide

end Operator

end FederatedJoin
