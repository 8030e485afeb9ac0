-- SUMMARY: Plans of federated requests, and the requests that have none.
import FederatedJoin.Limits
import FederatedJoin.Strategy

/-!
# Plans

A plan fixes everything about a request before a provider is called: routing,
strategy, the relations to attach and the window. Every fault of the request or
the schema is found here, and of several faults the first in the order of
`Plan.make` is reported.
-/

namespace FederatedJoin

structure Plan (relations : List Relation) where
  routing : Routing relations
  sorts : SortSplit relations
  strategy : Strategy relations
  /-- The relations to attach, in order of declaration. -/
  hydrated : List (RelationId relations)
  limit : UInt64
  offset : UInt64

namespace Plan

variable {relations : List Relation}

/-! ## Checks -/

def checkSearch (r : Request) : Except Failure Unit :=
  if r.search.isSome then .error .unsupportedSearch else .ok ()

def checkOperands : List Condition → Except Failure Unit
  | [] => .ok ()
  | c :: rest =>
    match c.validate with
    | .ok _ => checkOperands rest
    | .error e => .error (.input e)

def checkTags (routing : Routing relations) : Except Failure Unit :=
  match routing.unresolved with
  | [] => .ok ()
  | name :: _ => .error (.unknownRelation name)

def checkRootOr (routing : Routing relations) : Except Failure Unit :=
  if routing.rootOrFilters.isEmpty then .ok () else .error .unsupportedRootOr

/-- The first of the relations that has the fault, if any has it. -/
def checkNone (ids : List (RelationId relations)) (fault : Relation → Bool)
    (failure : Relation → Failure) : Except Failure Unit :=
  match ids.find? fun id => fault (relations.get id) with
  | none => .ok ()
  | some id => .error (failure (relations.get id))

/-- The root holds an owner relation's key, so no row of it can name the roots. -/
def checkOwners (routing : Routing relations) (sorts : SortSplit relations) :
    Except Failure Unit :=
  checkNone (routing.constrained ++ sorts.driving?.toList) (·.owner)
    fun r => .ownerRelationConstraint r.property

def checkUniqueness (routing : Routing relations) : Except Failure Unit :=
  checkNone routing.existence (fun r => r.isMany && !r.hasDistinctFilter)
    fun r => .missingDistinctFilter r.property r.foreignKey

/-- All relations of the chain have to name the roots by one field. -/
def checkChain (strategy : Strategy relations) : Except Failure Unit :=
  match strategy.driving? with
  | none => .ok ()
  | some driving =>
    let expected := (relations.get driving).rootKeyField
    checkNone strategy.chain (·.rootKeyField ≠ expected)
      fun r => .mismatchedJoinKey r.property expected r.rootKeyField

/-! ## Planning -/

/-- A request that lists no relations gets all of them; otherwise it gets those
that it lists and those of the chain. -/
def hydratedRelations (strategy : Strategy relations) (r : Request) :
    Except Failure (List (RelationId relations)) :=
  let all := List.finRange relations.length
  match r.relations with
  | [] => .ok all
  | names =>
    match names.find? fun name => (Relation.resolve? relations name).isNone with
    | some name => .error (.unknownRelation name)
    | none =>
      let listed := names.filterMap (Relation.resolve? relations)
      .ok (all.filter fun id => (listed ++ strategy.chain).contains id)

def make (relations : List Relation) (limits : Limits) (r : Request) :
    Except Failure (Plan relations) := do
  checkSearch r
  checkOperands (r.filters ++ r.orFilters)
  let routing := Routing.ofRequest relations r
  checkTags routing
  checkRootOr routing
  let sorts ← SortSplit.ofRequest relations r
  checkOwners routing sorts
  checkUniqueness routing
  let strategy := Strategy.select routing sorts
  checkChain strategy
  let hydrated ← hydratedRelations strategy r
  let limit := Page.atLeastOne (r.limit.getD limits.defaultLimit)
  return ⟨routing, sorts, strategy, hydrated, limit, r.offsetFor limit⟩

end Plan

/-! ## Summaries -/

/-- What a plan will do, by the names of the relations. -/
structure PlanSummary where
  strategy : String
  drivingRelation : Option String
  chain : List String
  hydrated : List String
  rootFilters : List Condition
  relationSorts : List SortKey
  rootSorts : List SortKey
  limit : UInt64
  offset : UInt64

def Plan.summary {relations : List Relation} (p : Plan relations) : PlanSummary :=
  let property (id : RelationId relations) := (relations.get id).property
  { strategy := p.strategy.name
    drivingRelation := p.strategy.driving?.map property
    chain := p.strategy.chain.map property
    hydrated := p.hydrated.map property
    rootFilters := p.routing.rootFilters
    relationSorts := p.sorts.relationKeys
    rootSorts := p.sorts.rootSorts
    limit := p.limit
    offset := p.offset }

end FederatedJoin
