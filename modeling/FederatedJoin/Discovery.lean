-- SUMMARY: Discovering root keys from the driving relation, window by window.
import FederatedJoin.Cursor
import FederatedJoin.Fetch
import FederatedJoin.FirstRows
import FederatedJoin.Plan

/-!
# Discovery

Several rows of the driving relation can name one root, and later relations of
the chain can refuse it, so the rows that a page of roots needs are not known
beforehand. Discovery reads window after window, narrows the keys of each along
the chain, and stops when enough keys are known, when a window comes back short,
or when no window is left.
-/

namespace FederatedJoin

structure Discovery where
  cursor : Cursor
  /-- The keys that passed the whole chain, in order of first occurrence. -/
  keys : List JoinKey
  /-- Whether a window came back with fewer rows than it has room for. -/
  exhausted : Bool
  /-- The total that the driving relation reported last. -/
  reportedTotal : Option UInt64
  /-- The first driving row of each key. -/
  ranks : FirstRows

namespace Discovery

variable {relations : List Relation}

def start (limit maxOffset : UInt64) : Discovery :=
  ⟨.start limit maxOffset, [], false, none, []⟩

/-- A bound on the number of matching roots, as far as the relation tells. -/
def total (d : Discovery) : UInt64 :=
  if d.exhausted then UInt64.ofNat d.keys.length
  else d.reportedTotal.getD (UInt64.ofNat d.keys.length)

/-! ## One window -/

/-- The request for one window of driving rows. -/
def windowRequest (plan : Plan relations) (driving : RelationId relations) (window : Window) :
    Request :=
  { plan.routing.discoveryRequest driving with
    sorts := plan.sorts.relationKeys
    limit := some window.limit
    offset := some window.offset }

/-- Keeps the keys for which every relation has a row, asking one after the other. -/
def narrow (routing : Routing relations) :
    List (RelationId relations) → List JoinKey → Fetch relations (List JoinKey)
  | [], keys => pure keys
  | id :: rest, keys =>
    if keys.isEmpty then pure []
    else do
      let field := (relations.get id).relationKeyField
      let page ← Fetch.getMany (.relation id)
        ((routing.discoveryRequest id).constrainKeys field keys)
      let survivors := Record.joinKeys page.data field
      narrow routing rest (keys.filter (· ∈ survivors))

def readWindow (plan : Plan relations) (driving : RelationId relations)
    (narrowing : List (RelationId relations)) (d : Discovery) : Fetch relations Discovery := do
  let window := d.cursor.window
  let page ← Fetch.getMany (.relation driving) (windowRequest plan driving window)
  let field := (relations.get driving).relationKeyField
  let keys ← narrow plan.routing narrowing (Record.joinKeys page.data field)
  return {
    cursor := d.cursor.advance
    keys := (d.keys ++ keys).eraseDups
    exhausted := page.data.length < window.limit.toNat
    reportedTotal := some page.total
    ranks := d.ranks.add field page.data }

/-- Reads windows until one comes back short, but not more than `left`. -/
def readAll (plan : Plan relations) (driving : RelationId relations)
    (narrowing : List (RelationId relations)) :
    (left : Nat) → Discovery → Fetch relations Discovery
  | 0, d => pure d
  | left + 1, d =>
    if d.exhausted then pure d
    else do
      let d ← readWindow plan driving narrowing d
      readAll plan driving narrowing left d

end Discovery

end FederatedJoin
