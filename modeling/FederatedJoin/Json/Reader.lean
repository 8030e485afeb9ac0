-- SUMMARY: Reading a JSON text into a tree, and into a value.
import FederatedJoin.Json.Token

/-!
# Reading JSON text

The grammar over tokens. A container inside `maxDepth` others is read and then
given up as unreadable.
-/

namespace FederatedJoin.Json

namespace Tree

def maxDepth : Nat := 127

/-- A container that may be too deep inside others. -/
def guardDepth (depth : Nat) (tree : Tree) : Tree :=
  if depth < maxDepth then tree else .unreadable

mutual

/-- The value at the front of the tokens, inside `depth` containers. Every call
takes a token, so as many steps as tokens are enough. -/
def value? : (steps depth : Nat) → List Token → Option (Tree × List Token)
  | 0, _, _ => none
  | steps + 1, depth, tokens =>
    match tokens with
    | .null :: rest => some (.null, rest)
    | .bool b :: rest => some (.bool b, rest)
    | .number n :: rest => some (n.elim .unreadable .number, rest)
    | .string s :: rest => some (s.elim .unreadable .string, rest)
    | .openArray :: .closeArray :: rest => some (guardDepth depth (.array []), rest)
    | .openArray :: rest => do
      let (items, rest) ← items? steps (depth + 1) rest
      return (guardDepth depth (.array items), rest)
    | .openObject :: .closeObject :: rest => some (guardDepth depth (.object []), rest)
    | .openObject :: rest => do
      let (fields, rest) ← fields? steps (depth + 1) rest
      return (guardDepth depth (.object fields), rest)
    | _ => none

/-- One item or more, and the closing bracket. -/
def items? : (steps depth : Nat) → List Token → Option (List Tree × List Token)
  | 0, _, _ => none
  | steps + 1, depth, tokens => do
    let (item, rest) ← value? steps depth tokens
    match rest with
    | .closeArray :: rest => return ([item], rest)
    | .comma :: rest =>
      let (items, rest) ← items? steps depth rest
      return (item :: items, rest)
    | _ => none

/-- One field or more, and the closing brace. -/
def fields? : (steps depth : Nat) → List Token →
    Option (List (Option String × Tree) × List Token)
  | 0, _, _ => none
  | steps + 1, depth, tokens =>
    match tokens with
    | .string name :: .colon :: rest => do
      let (value, rest) ← value? steps depth rest
      match rest with
      | .closeObject :: rest => return ([(name, value)], rest)
      | .comma :: rest =>
        let (fields, rest) ← fields? steps depth rest
        return ((name, value) :: fields, rest)
      | _ => none
    | _ => none

end

/-- The tree of a whole text; nothing may follow the value. -/
def ofText? (text : String) : Option Tree := do
  let tokens ← Token.ofText? text
  match value? (2 * tokens.length + 1) 0 tokens with
  | some (tree, []) => some tree
  | _ => none

end Tree

def ofText? (text : String) : Option Json := (Tree.ofText? text).bind Tree.toJson?

end FederatedJoin.Json
