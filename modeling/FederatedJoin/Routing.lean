-- SUMMARY: Routing the conditions of a request to the root and to each relation.
import FederatedJoin.Request
import FederatedJoin.Schema

/-!
# Routing

Every condition belongs to the root or to the relation that its tag names. An
inner join, or a sort by a relation, moreover asks that the relation has a
record at all: this existence check is a not-null condition on the foreign key,
which lies with the relation or, for an owner relation, with the root.
-/

namespace FederatedJoin

/-- What a tag refers to. -/
inductive Scope (relations : List Relation) where
  | root
  | relation (id : RelationId relations)
  | unknown (name : String)
  deriving DecidableEq

def Scope.ofTag (relations : List Relation) : Option String → Scope relations
  | none => .root
  | some name =>
    match Relation.resolve? relations name with
    | some id => .relation id
    | none => .unknown name

/-- The conditions on the records of one relation. -/
structure FilterSet where
  filters : List Condition
  orFilters : List Condition
  /-- The relation's distinct filter, once an existence check asks for it. -/
  distinct : List Condition
  deriving Inhabited

def FilterSet.hasConstraints (s : FilterSet) : Bool := !s.filters.isEmpty || !s.orFilters.isEmpty

structure Routing (relations : List Relation) where
  rootFilters : List Condition
  rootOrFilters : List Condition
  sets : Vector FilterSet relations.length
  /-- The relations with an existence check of their own, in the order in which it was asked for. -/
  existence : List (RelationId relations)
  /-- Tags that no relation declares. -/
  unresolved : List String

namespace Routing

variable {relations : List Relation}

/-! ## Distribution -/

/-- The conditions about one relation, without their tags. -/
def conditionsOf (id : RelationId relations) (conditions : List Condition) : List Condition :=
  (conditions.filter fun c => Scope.ofTag relations c.relation = .relation id).map (·.untagged)

def unknownTag? (relations : List Relation) (c : Condition) : Option String :=
  match Scope.ofTag relations c.relation with
  | .unknown name => some name
  | _ => none

/-- Each condition in its place, without existence checks. -/
def distribute (relations : List Relation) (r : Request) : Routing relations where
  rootFilters := r.filters.filter (·.relation.isNone)
  rootOrFilters := r.orFilters.filter (·.relation.isNone)
  sets := .ofFn fun id => ⟨conditionsOf id r.filters, conditionsOf id r.orFilters, []⟩
  existence := []
  unresolved := ((r.filters ++ r.orFilters).filterMap (unknownTag? relations)).eraseDups

/-! ## Existence checks -/

/-- Adds a check unless the conditions hold it already. -/
def addCheck (check : Condition) (conditions : List Condition) : List Condition :=
  if conditions.any (·.sameCheck check) then conditions else conditions ++ [check]

/-- Asks that a relation has a record. Asking again changes nothing. -/
def ensureExistence (routing : Routing relations) (id : RelationId relations) :
    Routing relations :=
  let relation := relations.get id
  let check := Condition.notNull relation.foreignKey
  if relation.owner then
    { routing with rootFilters := addCheck check routing.rootFilters }
  else
    let set := routing.sets.get id
    let set := { set with
      filters := addCheck check set.filters
      distinct := if set.distinct.isEmpty then relation.distinctFilter else set.distinct }
    { routing with
      sets := routing.sets.set id.val set id.isLt
      existence :=
        if id ∈ routing.existence then routing.existence else routing.existence ++ [id] }

/-- Whether a sort key of the request is tagged with the relation. -/
def sortsBy (r : Request) (id : RelationId relations) : Bool :=
  r.sorts.any fun key => Scope.ofTag relations key.relation = .relation id

def ofRequest (relations : List Relation) (r : Request) : Routing relations :=
  let asked (id : RelationId relations) : Bool := (relations.get id).isInner || sortsBy r id
  ((List.finRange relations.length).filter asked).foldl ensureExistence (distribute relations r)

/-! ## Reading -/

def hasRootFilters (routing : Routing relations) : Bool :=
  !routing.rootFilters.isEmpty || !routing.rootOrFilters.isEmpty

/-- The relations with conditions of their own, in order of declaration. -/
def constrained (routing : Routing relations) : List (RelationId relations) :=
  (List.finRange relations.length).filter fun id => (routing.sets.get id).hasConstraints

/-! ## Requests -/

/-- Replaces the conditions of a request by those on the root. -/
def applyRoot (routing : Routing relations) (r : Request) : Request :=
  { r with filters := routing.rootFilters, orFilters := routing.rootOrFilters }

/-- Adds the conditions on a relation to a request. -/
def applyRelation (routing : Routing relations) (id : RelationId relations)
    (withDistinct : Bool) (r : Request) : Request :=
  let set := routing.sets.get id
  { r with
    filters := r.filters ++ set.filters ++ (if withDistinct then set.distinct else [])
    orFilters := r.orFilters ++ set.orFilters }

def rootRequest (routing : Routing relations) : Request := routing.applyRoot .empty

/-- A request for the rows that discovery may use: the distinct filter counts. -/
def discoveryRequest (routing : Routing relations) (id : RelationId relations) : Request :=
  routing.applyRelation id true .empty

/-- A request for the rows to attach: the distinct filter does not count. -/
def hydrationRequest (routing : Routing relations) (id : RelationId relations) : Request :=
  routing.applyRelation id false .empty

end Routing

end FederatedJoin
