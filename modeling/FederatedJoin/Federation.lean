-- SUMMARY: Federations: a schema whose relations are all bound to providers.
import FederatedJoin.Binding
import FederatedJoin.Collection.Basic
import FederatedJoin.Execution

/-!
# Federations

A federation answers requests about its root with the relations attached. It
keeps nothing from one request to the next.
-/

namespace FederatedJoin

structure Federation (α : Type) where
  schema : Schema
  root : α
  bindings : List (Binding α)
  aligned : bindings.map (·.relation) = schema.relations
  limits : Limits

namespace Federation

variable {α : Type}

def make (schema : Schema) (root : α) (directory : Dictionary α) (limits : Limits) :
    Except Failure (Federation α) :=
  match schema.validate with
  | .error e => .error e
  | .ok _ =>
    match h : Binding.resolve directory schema.relations with
    | .error e => .error e
    | .ok bindings =>
      .ok ⟨schema, root, bindings, Binding.map_relation_of_resolve h, limits⟩

theorem length_bindings (f : Federation α) : f.bindings.length = f.schema.relations.length := by
  rw [← f.aligned, List.length_map]

def provider (f : Federation α) : Source f.schema.relations → α
  | .root => f.root
  | .relation id => (f.bindings.get (id.cast f.length_bindings.symm)).provider

/-! ## Requests -/

def plan (f : Federation α) (r : Request) : Except Failure (Plan f.schema.relations) :=
  Plan.make f.schema.relations f.limits r

def explain (f : Federation α) (r : Request) : Except Failure PlanSummary :=
  (f.plan r).map (·.summary)

def getMany (f : Federation α) (r : Request) : Fetch f.schema.relations Page := do
  let plan ← Fetch.ofExcept (f.plan r)
  Execution.pageOfPlan plan f.limits

def getOne (f : Federation α) (r : Request) : Fetch f.schema.relations Record := do
  let plan ← Fetch.ofExcept (f.plan r)
  Execution.recordOfPlan plan

section Plans

variable {f : Federation α} {r : Request} {plan : Plan f.schema.relations} {e : Failure}

theorem getMany_of_plan (h : f.plan r = .ok plan) :
    f.getMany r = Execution.pageOfPlan plan f.limits := by
  unfold getMany
  rw [h]
  rfl

theorem getMany_of_error (h : f.plan r = .error e) : f.getMany r = Fetch.fail e := by
  unfold getMany
  rw [h]
  rfl

theorem getOne_of_plan (h : f.plan r = .ok plan) : f.getOne r = Execution.recordOfPlan plan := by
  unfold getOne
  rw [h]
  rfl

theorem getOne_of_error (h : f.plan r = .error e) : f.getOne r = Fetch.fail e := by
  unfold getOne
  rw [h]
  rfl

end Plans

/-! ## Collections as providers -/

/-- Collections answer every request, and by its content alone. -/
def backend (f : Federation Collection) : Backend f.schema.relations where
  getMany _ source r := .ok ((f.provider source).getMany r)
  getOne _ source r := ((f.provider source).getOne r).mapError .failure

/-! ## Checked sums -/

/-- The page of a request where sums are checked. It is made last of all. -/
def getManyChecked (f : Federation α) (r : Request) : Fetch f.schema.relations Page := do
  let plan ← Fetch.ofExcept (f.plan r)
  let page ← Execution.pageOfPlan plan f.limits
  Fetch.ofExcept (Execution.checkedPage plan page)

section Plans

variable {f : Federation α} {r : Request} {plan : Plan f.schema.relations} {e : Failure}

theorem getManyChecked_of_plan (h : f.plan r = .ok plan) : f.getManyChecked r =
    Execution.pageOfPlan plan f.limits >>= fun page =>
      Fetch.ofExcept (Execution.checkedPage plan page) := by
  unfold getManyChecked
  rw [h]
  rfl

theorem getManyChecked_of_error (h : f.plan r = .error e) :
    f.getManyChecked r = Fetch.fail e := by
  unfold getManyChecked
  rw [h]
  rfl

end Plans

/-- Collections whose sums are checked. -/
def checkedBackend (f : Federation Collection) : Backend f.schema.relations where
  getMany _ source r :=
    match (f.provider source).getMany? r with
    | some page => .ok page
    | none => .error .overflow
  getOne _ source r := ((f.provider source).getOne r).mapError .failure

end Federation

end FederatedJoin
