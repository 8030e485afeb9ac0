-- SUMMARY: Splitting sort keys into those of the root and those of the driving relation.
import FederatedJoin.Routing

/-!
# Splitting sort keys

At most one relation may be sorted by, and if it is one-to-many it needs a
distinct filter, so that a root has one row to be sorted by.
-/

namespace FederatedJoin

structure SortSplit (relations : List Relation) where
  /-- The keys of the relation sorted by, each with the relation and without its tag. -/
  relationSorts : List (RelationId relations × SortKey)
  rootSorts : List SortKey

namespace SortSplit

variable {relations : List Relation}

/-- Splits the keys, given the relation that an earlier key was tagged with. -/
def ofKeys (relations : List Relation) (earlier : Option (RelationId relations)) :
    List SortKey → Except Failure (SortSplit relations)
  | [] => .ok ⟨[], []⟩
  | key :: rest =>
    match Scope.ofTag relations key.relation with
    | .root =>
      (ofKeys relations earlier rest).map fun s => { s with rootSorts := key :: s.rootSorts }
    | .unknown name => .error (.unknownRelation name)
    | .relation id =>
      if (relations.get id).isMany && !(relations.get id).hasDistinctFilter then
        .error (.missingDistinctFilter (relations.get id).property key.field)
      else if earlier.any (· ≠ id) then
        .error (.multipleSortRelations (relations.get (earlier.getD id)).property
          (relations.get id).property)
      else
        (ofKeys relations (some id) rest).map fun s =>
          { s with relationSorts := (id, key.untagged) :: s.relationSorts }

def ofRequest (relations : List Relation) (r : Request) : Except Failure (SortSplit relations) :=
  ofKeys relations none r.sorts

/-- The relation sorted by. -/
def driving? (s : SortSplit relations) : Option (RelationId relations) :=
  s.relationSorts.head?.map (·.1)

def relationKeys (s : SortSplit relations) : List SortKey := s.relationSorts.map (·.2)

/-- Replaces the sort keys of a request by those of the root. -/
def applyRoot (s : SortSplit relations) (r : Request) : Request := { r with sorts := s.rootSorts }

end SortSplit

end FederatedJoin
