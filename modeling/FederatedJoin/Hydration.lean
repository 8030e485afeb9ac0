-- SUMMARY: Fetching the related records of roots and attaching them.
import FederatedJoin.Fetch
import FederatedJoin.Plan
import FederatedJoin.RelatedRows

/-!
# Hydration

Each relation of a plan is fetched once for all roots, constrained to their join
keys and without a window. A relation for which no root has a key is not
fetched; its empty value is attached while the other requests are still being
prepared, so their keys are read from roots that hold it. All records are
fetched before the first are attached.
-/

namespace FederatedJoin.Hydration

variable {relations : List Relation}

/-- One relation to fetch. -/
structure Task (relations : List Relation) where
  id : RelationId relations
  request : Request

/-- The roots with the empty relations attached, and what is left to fetch. -/
def prepare (routing : Routing relations) :
    List (RelationId relations) → List Record → List Record × List (Task relations)
  | [], roots => (roots, [])
  | id :: rest, roots =>
    let relation := relations.get id
    match Record.joinKeys roots relation.rootKeyField with
    | [] => prepare routing rest (relation.attachEmpty roots)
    | keys =>
      let request := (routing.hydrationRequest id).constrainKeys relation.relationKeyField keys
      let (roots, tasks) := prepare routing rest roots
      (roots, ⟨id, request⟩ :: tasks)

def fetchAll : List (Task relations) → Fetch relations (List (RelationId relations × List Record))
  | [] => pure []
  | task :: rest => do
    let page ← Fetch.getMany (.relation task.id) task.request
    let more ← fetchAll rest
    return (task.id, page.data) :: more

def attachAll (fetched : List (RelationId relations × List Record)) (roots : List Record) :
    List Record :=
  fetched.foldl (fun roots (id, rows) =>
    (relations.get id).attach (RelatedRows.ofRecords (relations.get id) rows) roots) roots

def hydrate (plan : Plan relations) (roots : List Record) : Fetch relations (List Record) := do
  let (roots, tasks) := prepare plan.routing plan.hydrated roots
  let fetched ← fetchAll tasks
  return attachAll fetched roots

end FederatedJoin.Hydration
