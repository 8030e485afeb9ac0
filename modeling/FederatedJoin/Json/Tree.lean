-- SUMMARY: What a JSON text says before it is known which of its parts are read.
import FederatedJoin.Json.Basic

/-!
# Trees of JSON text

A text may hold parts that no reader asks for. A `Tree` keeps every field of an
object in the order of the text, repeated names included, and marks as
`unreadable` what is grammatical and yet stands for no value: a number out of
range, a string with an unpaired surrogate, a container nested too deeply. A
reader fails on such a part only when it needs it.
-/

namespace FederatedJoin.Json

inductive Tree where
  | null
  | bool (value : Bool)
  | number (value : Number)
  | string (value : String)
  | array (items : List Tree)
  | object (fields : List (Option String × Tree))
  | unreadable
  deriving Inhabited

namespace Tree

mutual

def ofJson : Json → Tree
  | .null => .null
  | .bool b => .bool b
  | .number n => .number n
  | .string s => .string s
  | .array items => .array (ofItems items)
  | .object fields => .object (ofFields fields)

def ofItems : List Json → List Tree
  | [] => []
  | item :: rest => ofJson item :: ofItems rest

def ofFields : List (String × Json) → List (Option String × Tree)
  | [] => []
  | (name, value) :: rest => (some name, ofJson value) :: ofFields rest

end

mutual

/-- The whole tree as a value, or `none` when a part of it is unreadable. Of a
repeated name the last value stays. -/
def toJson? : Tree → Option Json
  | .null => some .null
  | .bool b => some (.bool b)
  | .number n => some (.number n)
  | .string s => some (.string s)
  | .array items => (toItems? items).map .array
  | .object fields => (toFields? fields).map fun pairs => .object (Dictionary.ofList pairs)
  | .unreadable => none

def toItems? : List Tree → Option (List Json)
  | [] => some []
  | item :: rest => do
    let item ← toJson? item
    let rest ← toItems? rest
    return item :: rest

def toFields? : List (Option String × Tree) → Option (List (String × Json))
  | [] => some []
  | (name, value) :: rest => do
    let name ← name
    let value ← toJson? value
    let rest ← toFields? rest
    return (name, value) :: rest

end

end Tree

end FederatedJoin.Json
