-- SUMMARY: Conditions on one field, tagged with the relation whose records they are about.
import FederatedJoin.InputError
import FederatedJoin.Operand.Order

/-!
# Conditions

A condition compares one field with an operand. Its tag names the relation that
the field belongs to; without a tag the field is the root's.
-/

namespace FederatedJoin

structure Condition where
  field : String
  operator : Operator
  operand : Operand
  relation : Option String
  deriving Inhabited

namespace Condition

def equal (field : String) (operand : Operand) : Condition := ⟨field, .equal, operand, none⟩

def among (field : String) (operands : List Operand) : Condition :=
  ⟨field, .among, .list operands, none⟩

def notNull (field : String) : Condition := ⟨field, .notNull, .null, none⟩

/-- That the field holds one of the operands; a single operand needs no list. -/
def oneOf (field : String) : List Operand → Condition
  | [operand] => equal field operand
  | operands => among field operands

/-- The same condition without its tag. -/
def untagged (c : Condition) : Condition := { c with relation := none }

/-- Checks that the operator can use the operand. -/
def validate (c : Condition) : Except InputError Unit :=
  let expects (shape : OperandShape) (fits : Bool) : Except InputError Unit :=
    if fits then .ok () else .error (.operand c.operator c.field shape)
  match c.operator with
  | .among | .notAmong => expects .list c.operand.isList
  | .between => expects .range (match c.operand with
    | .list [_, _] => true
    | _ => false)
  | .startsWith | .endsWith | .contains | .excludes => expects .string c.operand.toString?.isSome
  | _ => .ok ()

/-- Whether two conditions ask for the same. The operand of a not-null check does not count. -/
def sameCheck (c d : Condition) : Bool :=
  c.field == d.field && c.operator == d.operator &&
    (c.operator == .notNull || c.operand.same d.operand)

@[simp] theorem untagged_relation (c : Condition) : c.untagged.relation = none := rfl

end Condition

end FederatedJoin
