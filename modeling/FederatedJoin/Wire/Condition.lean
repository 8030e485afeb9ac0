-- SUMMARY: The wire form of operands, join keys, records, conditions, sort keys and search trees.
import FederatedJoin.SearchTree
import FederatedJoin.SortKey
import FederatedJoin.Wire.Reader

/-!
# Wire form of conditions

A tag that is absent is not written; everything else is, an operand of null
included.
-/

namespace FederatedJoin

open Json (Tree)

/-! ## Operands, keys and records -/

namespace Operand

mutual

/-- An operand is written plainly, so an object anywhere inside is refused. -/
def ofTree? : Tree → Option Operand
  | .null => some .null
  | .bool b => some (.bool b)
  | .number n => some (ofNumber n)
  | .string s => some (.string s)
  | .array items => (ofTrees? items).map .list
  | .object _ => none
  | .unreadable => none

def ofTrees? : List Tree → Option (List Operand)
  | [] => some []
  | item :: rest => do
    let item ← ofTree? item
    let rest ← ofTrees? rest
    return item :: rest

end

end Operand

def JoinKey.ofTree? : Tree → Option JoinKey
  | .bool b => some (.bool b)
  | .number n => n.toInt64?.map .int
  | .string s => some (.string s)
  | _ => none

def Record.ofTree? : Tree → Option Record
  | .object fields => (Tree.toFields? fields).map fun pairs => ⟨Dictionary.ofList pairs⟩
  | _ => none

/-! ## Conditions and sort keys -/

/-- A field that is written only when it has a value. -/
def Wire.optionalField (name : String) (value : Option Json) : List (String × Json) :=
  match value with
  | some json => [(name, json)]
  | none => []

namespace Condition

def toJson (c : Condition) : Json :=
  .object ([("field", .string c.field), ("operator", .string c.operator.symbol),
    ("value", c.operand.toJson)] ++ Wire.optionalField "relation" (c.relation.map .string))

def ofTree? (tree : Tree) : Option Condition := do
  let parts ← Wire.parts? ["field", "operator", "value", "relation"] tree
  let field ← parts.required? "field" Wire.string?
  let symbol ← parts.required? "operator" Wire.name?
  let operator ← Operator.ofSymbol? symbol
  let operand ← parts.defaulted? "value" .null Operand.ofTree?
  let relation ← parts.defaulted? "relation" none (Wire.optional? Wire.string?)
  return ⟨field, operator, operand, relation⟩

end Condition

namespace Direction

def name : Direction → String
  | .ascending => "ASC"
  | .descending => "DESC"

def ofTree? (tree : Tree) : Option Direction := do
  match ← Wire.name? tree with
  | "ASC" => some .ascending
  | "DESC" => some .descending
  | _ => none

end Direction

namespace SortKey

def toJson (key : SortKey) : Json :=
  .object ([("field", .string key.field), ("order", .string key.direction.name)]
    ++ Wire.optionalField "relation" (key.relation.map .string))

def ofTree? (tree : Tree) : Option SortKey := do
  let parts ← Wire.parts? ["field", "order", "relation"] tree
  let field ← parts.required? "field" Wire.string?
  let direction ← parts.defaulted? "order" .ascending Direction.ofTree?
  let relation ← parts.defaulted? "relation" none (Wire.optional? Wire.string?)
  return ⟨field, direction, relation⟩

end SortKey

/-! ## Search trees -/

namespace SearchTree

mutual

def toJson : SearchTree → Json
  | .and children => .object [("$and", .array (toItems children))]
  | .or children => .object [("$or", .array (toItems children))]
  | .condition c => .object [("$cond", c.toJson)]

def toItems : List SearchTree → List Json
  | [] => []
  | child :: rest => toJson child :: toItems rest

end

mutual

/-- An object with one field, which names the kind of node. -/
def ofTree? : Tree → Option SearchTree
  | .object [(some "$and", .array children)] => (ofTrees? children).map .and
  | .object [(some "$or", .array children)] => (ofTrees? children).map .or
  | .object [(some "$cond", tree)] => (Condition.ofTree? tree).map .condition
  | _ => none

def ofTrees? : List Tree → Option (List SearchTree)
  | [] => some []
  | child :: rest => do
    let child ← ofTree? child
    let rest ← ofTrees? rest
    return child :: rest

end

end SearchTree

end FederatedJoin
