-- SUMMARY: Executing plans: roots first, or keys discovered from a relation first.
import FederatedJoin.Discovery
import FederatedJoin.Hydration
import FederatedJoin.Ties

/-!
# Execution

A plan without a driving relation pages the roots and attaches their relations.
Otherwise keys are discovered first. Sorted by a relation, the page follows the
order of discovery, and discovery stops when the page is full. Sorted by the
root alone, every key is discovered, and the root's provider sorts and pages
them.
-/

namespace FederatedJoin.Execution

variable {relations : List Relation}

/-! ## Root requests -/

/-- The root's conditions and sort keys, without a window. -/
def rootRequest (plan : Plan relations) : Request :=
  plan.sorts.applyRoot plan.routing.rootRequest

def windowed (plan : Plan relations) (r : Request) : Request :=
  { r with limit := some plan.limit, offset := some plan.offset }

/-- The field of a root by which the driving relation names it. -/
def rootKeyField (driving : RelationId relations) : String := (relations.get driving).rootKeyField

/-- A bound on the number of matching roots, as far as the root's conditions tell. -/
def rootTotal (plan : Plan relations) : Fetch relations UInt64 :=
  if plan.routing.hasRootFilters then do
    let page ← Fetch.getMany .root { plan.routing.rootRequest with limit := some 1 }
    return page.total
  else pure Word.greatest

def emptyPage (plan : Plan relations) : Page := .empty plan.offset plan.limit

def pageOf (plan : Plan relations) (roots : List Record) (total : UInt64) : Page :=
  .ofWindow roots total plan.offset plan.limit

/-- The page made over again where sums are checked. -/
def checkedPage (plan : Plan relations) (page : Page) : Except Failure Page :=
  match Page.ofWindow? page.data page.total plan.offset plan.limit with
  | some page => .ok page
  | none => .error .overflow

/-! ## Roots first -/

def rootFirst (plan : Plan relations) : Fetch relations Page := do
  let page ← Fetch.getMany .root (windowed plan (rootRequest plan))
  let roots ← Hydration.hydrate plan page.data
  return pageOf plan roots page.total

/-! ## Ordered by the root -/

/-- Pages the discovered keys through the root's provider. When discovery was
cut short, the provider saw only a part of the matching roots. -/
def rootOrdered (plan : Plan relations) (driving : RelationId relations) (d : Discovery) :
    Fetch relations Page :=
  if d.keys.isEmpty then pure (emptyPage plan)
  else do
    let request := (rootRequest plan).constrainKeys (rootKeyField driving) d.keys
    let page ← Fetch.getMany .root (windowed plan request)
    let total ←
      if d.exhausted then pure page.total
      else do
        let bound ← rootTotal plan
        pure (max (min bound d.total) page.total)
    let roots ← Hydration.hydrate plan page.data
    return pageOf plan roots total

/-! ## Ordered by the driving relation -/

/-- Keys discovered so far, and the roots fetched for them. -/
structure Gathering where
  discovery : Discovery
  found : FirstRows
  /-- How many of the keys were asked for. -/
  fetched : Nat

/-- Fetches the roots of the keys that were not yet asked for. -/
def settle (plan : Plan relations) (driving : RelationId relations) (g : Gathering) :
    Fetch relations Gathering :=
  match g.discovery.keys.drop g.fetched with
  | [] => pure g
  | pending => do
    let field := rootKeyField driving
    let page ← Fetch.getMany .root ((rootRequest plan).constrainKeys field pending)
    return { g with
      found := g.found.add field page.data
      fetched := g.discovery.keys.length }

/-- How many keys to discover before the roots are fetched again: those that are
known, and one for each root that is missing. -/
def resumeTarget (target : Nat) (g : Gathering) : Nat :=
  g.discovery.keys.length + (target - g.found.length)

/-- Reads windows until `wanted` keys are known, fetches their roots, and goes on
when the root's conditions leave fewer than `target` of them. At most `left`
windows are read. -/
def gather (plan : Plan relations) (driving : RelationId relations)
    (narrowing : List (RelationId relations)) (target : Nat) :
    (left wanted : Nat) → Gathering → Fetch relations Gathering
  | 0, _, g => settle plan driving g
  | left + 1, wanted, g =>
    if g.discovery.keys.length < wanted && !g.discovery.exhausted then do
      let d ← g.discovery.readWindow plan driving narrowing
      gather plan driving narrowing target left wanted { g with discovery := d }
    else do
      let g ← settle plan driving g
      if g.discovery.exhausted || target ≤ g.found.length then pure g
      else
        let d ← g.discovery.readWindow plan driving narrowing
        gather plan driving narrowing target left (resumeTarget target g)
          { g with discovery := d }

/-- The number of windows of the given size that hold so many rows. -/
def windowsFor (rows limit : Nat) : Nat := (rows + (limit - 1)) / limit

/-- The windows that the page itself needs and those that may be lost to repeated
or refused keys, but none at the greatest offset or beyond. -/
def windowBudget (limits : Limits) (target : Nat) (cursor : Cursor) : Nat :=
  min (windowsFor target cursor.size.toNat + limits.maxIterations.toNat) cursor.windowsLeft

/-- How many roots have to be known before the page can be cut out of them. -/
def target (plan : Plan relations) : Nat := (Word.addSat plan.offset plan.limit).toNat

/-- The fetched roots in the order of their keys, ties broken by the root sorts. -/
def ordered (plan : Plan relations) (g : Gathering) : List Record :=
  let roots := g.discovery.keys.filterMap fun key => (g.found.get? key).map (key, ·)
  let roots :=
    if plan.sorts.rootSorts.isEmpty then roots
    else Ties.breakTies g.discovery.ranks plan.sorts.relationKeys plan.sorts.rootSorts roots
  roots.map (·.2)

def relationOrdered (plan : Plan relations) (limits : Limits) (driving : RelationId relations)
    (narrowing : List (RelationId relations)) : Fetch relations Page := do
  let start := Discovery.start plan.limit limits.maxOffset
  let target := target plan
  let budget := windowBudget limits target start.cursor
  let g ← gather plan driving narrowing target budget target ⟨start, [], 0⟩
  if g.discovery.keys.isEmpty then return emptyPage plan
  let window := ((ordered plan g).drop plan.offset.toNat).take plan.limit.toNat
  let bound ← rootTotal plan
  let roots ← Hydration.hydrate plan window
  return pageOf plan roots (min bound g.discovery.total)

/-! ## Plans -/

def relationFirst (plan : Plan relations) (limits : Limits) (driving : RelationId relations)
    (narrowing : List (RelationId relations)) : Fetch relations Page :=
  if plan.sorts.relationSorts.isEmpty && !plan.sorts.rootSorts.isEmpty then do
    let start := Discovery.start plan.limit limits.maxOffset
    let d ← start.readAll plan driving narrowing start.cursor.windowsLeft
    rootOrdered plan driving d
  else relationOrdered plan limits driving narrowing

def pageOfPlan (plan : Plan relations) (limits : Limits) : Fetch relations Page :=
  match plan.strategy with
  | .rootFirst => rootFirst plan
  | .relationFirst driving narrowing => relationFirst plan limits driving narrowing

/-- One root that satisfies the root's conditions, with its relations. -/
def recordOfPlan (plan : Plan relations) : Fetch relations Record := do
  let root ← Fetch.getOne .root plan.routing.rootRequest
  let roots ← Hydration.hydrate plan [root]
  return roots.headD root

end FederatedJoin.Execution
