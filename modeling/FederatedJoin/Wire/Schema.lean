-- SUMMARY: The wire form of relations and schemas.
import FederatedJoin.Schema
import FederatedJoin.Wire.Condition

/-!
# Wire form of schemas

A relation is a left join and no owner relation unless it says so. An empty
distinct filter is not written.
-/

namespace FederatedJoin

open Json (Tree)

namespace Cardinality

def name : Cardinality → String
  | .one => "one"
  | .many => "many"

def ofTree? (tree : Tree) : Option Cardinality := do
  match ← Wire.name? tree with
  | "one" => some .one
  | "many" => some .many
  | _ => none

end Cardinality

namespace Join

def name : Join → String
  | .left => "LEFT"
  | .inner => "INNER"

def ofTree? (tree : Tree) : Option Join := do
  match ← Wire.name? tree with
  | "LEFT" => some .left
  | "INNER" => some .inner
  | _ => none

end Join

namespace Relation

def toJson (r : Relation) : Json :=
  .object ([("property", .string r.property), ("cardinality", .string r.cardinality.name),
      ("join", .string r.join.name), ("owner", .bool r.owner),
      ("primary_key", .string r.primaryKey), ("foreign_key", .string r.foreignKey)]
    ++ Wire.optionalField "distinct_filter"
      (if r.distinctFilter.isEmpty then none
        else some (.array (r.distinctFilter.map (·.toJson))))
    ++ [("provider", .string r.provider)])

def ofTree? (tree : Tree) : Option Relation := do
  let parts ← Wire.parts? ["property", "cardinality", "join", "owner", "primary_key",
    "foreign_key", "distinct_filter", "provider"] tree
  let property ← parts.required? "property" Wire.string?
  let cardinality ← parts.required? "cardinality" Cardinality.ofTree?
  let join ← parts.defaulted? "join" .left Join.ofTree?
  let owner ← parts.defaulted? "owner" false Wire.bool?
  let primaryKey ← parts.required? "primary_key" Wire.string?
  let foreignKey ← parts.required? "foreign_key" Wire.string?
  let distinctFilter ← parts.defaulted? "distinct_filter" [] (Wire.list? Condition.ofTree?)
  let provider ← parts.required? "provider" Wire.string?
  return ⟨property, cardinality, join, owner, primaryKey, foreignKey, distinctFilter, provider⟩

end Relation

namespace RootCollection

def toJson (root : RootCollection) : Json :=
  .object [("entity", .string root.entity), ("primary_key", .string root.primaryKey)]

def ofTree? (tree : Tree) : Option RootCollection := do
  let parts ← Wire.parts? ["entity", "primary_key"] tree
  let entity ← parts.required? "entity" Wire.string?
  let primaryKey ← parts.required? "primary_key" Wire.string?
  return ⟨entity, primaryKey⟩

end RootCollection

namespace Schema

def toJson (s : Schema) : Json :=
  .object [("root", s.root.toJson), ("relations", .array (s.relations.map (·.toJson)))]

def ofTree? (tree : Tree) : Option Schema := do
  let parts ← Wire.parts? ["root", "relations"] tree
  let root ← parts.required? "root" RootCollection.ofTree?
  let relations ← parts.defaulted? "relations" [] (Wire.list? Relation.ofTree?)
  return ⟨root, relations⟩

end Schema

end FederatedJoin
