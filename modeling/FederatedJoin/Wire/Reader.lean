-- SUMMARY: Reading the parts of structures, lists and names from JSON trees.
import FederatedJoin.Json.Tree

/-!
# Reading wire structures

A structure is written as an object or as an array of its fields in their
declared order. In an object, fields that the structure does not have are
skipped and those that it has may not be repeated; in an array, fields at the
end may be left out. Every reader gives `none` when the tree does not fit.
-/

namespace FederatedJoin.Wire

open Json (Tree)

/-- The fields of a structure that are present, by name. -/
abbrev Parts : Type := List (String × Tree)

/-! ## Leaves -/

def string? : Tree → Option String
  | .string s => some s
  | _ => none

def bool? : Tree → Option Bool
  | .bool b => some b
  | _ => none

def uint64? : Tree → Option UInt64
  | .number n => n.toUInt64?
  | _ => none

/-- A bare name, which may also be written as an object that holds null under it. -/
def name? : Tree → Option String
  | .string s => some s
  | .object [(some s, .null)] => some s
  | _ => none

def optional? {α : Type} (read : Tree → Option α) : Tree → Option (Option α)
  | .null => some none
  | tree => (read tree).map some

def list? {α : Type} (read : Tree → Option α) : Tree → Option (List α)
  | .array items => items.mapM read
  | _ => none

/-! ## Structures -/

def named? (names : List String) : List (Option String × Tree) → Option Parts
  | [] => some []
  | (none, _) :: _ => none
  | (some name, tree) :: rest => do
    let parts ← named? names rest
    if name ∉ names then some parts
    else if parts.any (·.1 = name) then none
    else some ((name, tree) :: parts)

/-- The parts of a structure with the given field names. -/
def parts? (names : List String) : Tree → Option Parts
  | .object fields => named? names fields
  | .array items => if items.length ≤ names.length then some (names.zip items) else none
  | _ => none

namespace Parts

variable {α : Type}

def required? (parts : Parts) (name : String) (read : Tree → Option α) : Option α :=
  (parts.lookup name).bind read

/-- A field with a default, which stands in only when the field is missing. -/
def defaulted? (parts : Parts) (name : String) (default : α) (read : Tree → Option α) :
    Option α :=
  match parts.lookup name with
  | none => some default
  | some tree => read tree

end Parts

end FederatedJoin.Wire
