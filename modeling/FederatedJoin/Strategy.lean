-- SUMMARY: Choosing which side of the joins is read first.
import FederatedJoin.SortSplit

/-!
# Strategies

A relation that constrains the roots, or that they are sorted by, has to be read
before them: it drives discovery, and the other constrained relations narrow
its keys one after the other. Without such a relation the roots are read first.
-/

namespace FederatedJoin

inductive Strategy (relations : List Relation) where
  | rootFirst
  | relationFirst (driving : RelationId relations) (narrowing : List (RelationId relations))
  deriving DecidableEq

namespace Strategy

variable {relations : List Relation}

def select (routing : Routing relations) (sorts : SortSplit relations) : Strategy relations :=
  match sorts.driving?.or routing.constrained.head? with
  | none => .rootFirst
  | some driving =>
    .relationFirst driving
      (routing.constrained.filter fun id => id ≠ driving && !(relations.get id).owner)

def isRelationFirst : Strategy relations → Bool
  | .rootFirst => false
  | .relationFirst .. => true

def driving? : Strategy relations → Option (RelationId relations)
  | .rootFirst => none
  | .relationFirst driving _ => some driving

/-- The driving relation and the relations that narrow its keys, in order. -/
def chain : Strategy relations → List (RelationId relations)
  | .rootFirst => []
  | .relationFirst driving narrowing => driving :: narrowing

def name : Strategy relations → String
  | .rootFirst => "ROOT_FIRST"
  | .relationFirst .. => "RELATION_FIRST"

end Strategy

end FederatedJoin
