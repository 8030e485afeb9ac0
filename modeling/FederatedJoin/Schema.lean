-- SUMMARY: Schemas: a root collection and the relations declared on it.
import FederatedJoin.Failure
import FederatedJoin.Relation

/-!
# Schemas

A schema is valid when its root has a primary key and its relations have
distinct properties. Then a property has one declaration, and looking for the
first or for the last makes no difference.
-/

namespace FederatedJoin

structure RootCollection where
  entity : String
  primaryKey : String
  deriving DecidableEq, Inhabited

structure Schema where
  root : RootCollection
  relations : List Relation
  deriving Inhabited

/-- A relation by its place in the list of declarations. -/
abbrev RelationId (relations : List Relation) : Type := Fin relations.length

namespace Relation

/-- The last declaration of a property. -/
def resolve? (relations : List Relation) (property : String) : Option (RelationId relations) :=
  (List.finRange relations.length).reverse.find? fun id => (relations.get id).property = property

/-- The first property that an earlier declaration already has, given the properties seen. -/
def firstRepeated? (seen : List String) : List Relation → Option String
  | [] => none
  | r :: rest =>
    if r.property ∈ seen then some r.property else firstRepeated? (r.property :: seen) rest

end Relation

namespace Schema

/-- The first declaration of a property. -/
def relation? (s : Schema) (property : String) : Option Relation :=
  s.relations.find? (·.property = property)

def validate (s : Schema) : Except Failure Unit :=
  if s.root.primaryKey.isEmpty then .error (.missingRootKey s.root.entity)
  else match Relation.firstRepeated? [] s.relations with
    | some property => .error (.duplicateRelation property)
    | none => .ok ()

end Schema

end FederatedJoin
