-- SUMMARY: What a federation over collections answers, and that hydration changes attached properties only.
import FederatedJoin.Federation
import FederatedJoin.Proofs.Selection
import Mathlib.Algebra.Module.Submodule.Lattice
import Mathlib.Computability.Primrec.List
import Mathlib.Computability.TuringMachine.StackTuringMachine
import Mathlib.Data.Fin.Tuple.Take
import Mathlib.Data.List.Permutation

/-!
# Answers of a federation over collections

Collections answer every request, and by its content alone, so a computation on
them has one result, whatever was called before. Hydration always succeeds
there, keeps the roots in their places, and changes a root only in the
properties that the plan attaches.
-/

namespace FederatedJoin

/-! ## Fields outside the attached properties -/

namespace Record

/-- The fields of a record that are none of the given properties. -/
def outside (properties : List String) (r : Record) : String → Option Json :=
  fun field => if field ∈ properties then none else r.get? field

theorem outside_set {properties : List String} {property : String} (h : property ∈ properties)
    (r : Record) (value : Json) :
    (r.set property value).outside properties = r.outside properties := by
  funext field
  unfold outside
  split
  · rfl
  · next hfield =>
    have hne : property ≠ field := by
      rintro rfl
      exact hfield h
    exact get?_set_of_ne hne r value

theorem joinKey?_of_outside {properties : List String} {field : String}
    (hfield : field ∉ properties) (r : Record) :
    r.joinKey? field = (r.outside properties field).bind JoinKey.ofJson? := by
  simp only [outside, if_neg hfield, joinKey?]

theorem map_joinKey?_eq_of_outside {properties : List String} {as bs : List Record}
    (h : as.map (·.outside properties) = bs.map (·.outside properties)) {field : String}
    (hfield : field ∉ properties) : as.map (·.joinKey? field) = bs.map (·.joinKey? field) := by
  have hread := congrArg (List.map fun view => (view field).bind JoinKey.ofJson?) h
  simpa [Function.comp_def, ← joinKey?_of_outside hfield] using hread

end Record

namespace Plan

variable {relations : List Relation}

/-- The properties of the hydrated relations. -/
def attached (plan : Plan relations) : List String :=
  plan.hydrated.map fun id => (relations.get id).property

end Plan

/-! ## Results on collections -/

namespace Federation

variable {f : Federation Collection} {α β : Type}

/-- Whatever was called before, the computation gives this result on the collections. -/
def Answers (f : Federation Collection) (x : Fetch f.schema.relations α) (a : α) : Prop :=
  ∀ trace, (x f.backend trace).1 = .ok a

theorem answers_pure (a : α) : f.Answers (pure a) a := fun _ => rfl

theorem Answers.bind {x : Fetch f.schema.relations α} {a : α} (hx : f.Answers x a)
    {g : α → Fetch f.schema.relations β} {b : β} (hg : f.Answers (g a) b) :
    f.Answers (x >>= g) b := by
  intro trace
  rw [Fetch.bind_of_ok (Prod.ext (hx trace) rfl)]
  exact hg _

theorem answers_getMany (source : Source f.schema.relations) (q : Request) :
    f.Answers (Fetch.getMany source q) ((f.provider source).getMany q) := fun _ => rfl

/-- A collection without a row for the request fails, and nothing else goes wrong. -/
theorem result_getOne (source : Source f.schema.relations) (q : Request)
    (trace : List (Call f.schema.relations)) : (Fetch.getOne source q f.backend trace).1 =
      ((f.provider source).getOne q).mapError .provider := by
  show (((f.provider source).getOne q).mapError Fault.failure).mapError Failure.ofFault = _
  cases (f.provider source).getOne q <;> rfl

/-- The page that a request gets. -/
def answer (f : Federation Collection) (r : Request) : Except Failure Page :=
  ((f.getMany r).run f.backend).1

theorem answer_of_plan {r : Request} {plan : Plan f.schema.relations} (hplan : f.plan r = .ok plan)
    {page : Page} (h : f.Answers (Execution.pageOfPlan plan f.limits) page) :
    f.answer r = .ok page := by
  unfold answer
  rw [getMany_of_plan hplan]
  exact h []

/-- All collections of the federation can count their rows. -/
def FitsWords (f : Federation Collection) : Prop := ∀ source, (f.provider source).FitsWord

end Federation

/-! ## Hydration -/

namespace Hydration

open Federation

variable {f : Federation Collection} {relations : List Relation}

theorem map_outside_attach {properties : List String} {relation : Relation}
    (h : relation.property ∈ properties) (rows : RelatedRows) (roots : List Record) :
    (relation.attach rows roots).map (·.outside properties) =
      roots.map (·.outside properties) := by
  simp [Relation.attach, Record.outside_set h]

theorem map_outside_attachEmpty {properties : List String} {relation : Relation}
    (h : relation.property ∈ properties) (roots : List Record) :
    (relation.attachEmpty roots).map (·.outside properties) =
      roots.map (·.outside properties) := by
  simp [Relation.attachEmpty, Record.outside_set h]

/-- Preparing attaches empty values of the listed relations and nothing else. -/
theorem map_outside_prepare {properties : List String} (routing : Routing relations)
    (ids : List (RelationId relations)) (roots : List Record)
    (h : ∀ id ∈ ids, (relations.get id).property ∈ properties) :
    (prepare routing ids roots).1.map (·.outside properties) =
      roots.map (·.outside properties) := by
  induction ids generalizing roots with
  | nil => rfl
  | cons id rest ih =>
    have hrest : ∀ other ∈ rest, (relations.get other).property ∈ properties :=
      fun other hother => h other (List.mem_cons_of_mem _ hother)
    cases hkeys : Record.joinKeys roots (relations.get id).rootKeyField with
    | nil =>
      simp only [prepare, hkeys]
      rw [ih _ hrest, map_outside_attachEmpty (h id List.mem_cons_self)]
    | cons key keys =>
      simp only [prepare, hkeys]
      exact ih roots hrest

theorem id_mem_of_mem_prepare {routing : Routing relations} {ids : List (RelationId relations)}
    {roots : List Record} {task : Task relations} (h : task ∈ (prepare routing ids roots).2) :
    task.id ∈ ids := by
  induction ids generalizing roots with
  | nil => cases h
  | cons id rest ih =>
    cases hkeys : Record.joinKeys roots (relations.get id).rootKeyField with
    | nil =>
      simp only [prepare, hkeys] at h
      exact List.mem_cons_of_mem _ (ih h)
    | cons key keys =>
      simp only [prepare, hkeys] at h
      rcases List.mem_cons.1 h with rfl | h
      · exact List.mem_cons_self
      · exact List.mem_cons_of_mem _ (ih h)

/-- The rows that the tasks fetch. -/
def fetched (f : Federation Collection) (tasks : List (Task f.schema.relations)) :
    List (RelationId f.schema.relations × List Record) :=
  tasks.map fun task => (task.id, ((f.provider (.relation task.id)).getMany task.request).data)

theorem answers_fetchAll (tasks : List (Task f.schema.relations)) :
    f.Answers (fetchAll tasks) (fetched f tasks) := by
  induction tasks with
  | nil => exact answers_pure _
  | cons task rest ih => exact (answers_getMany _ _).bind (ih.bind (answers_pure _))

theorem map_outside_attachAll {properties : List String}
    (rows : List (RelationId relations × List Record)) (roots : List Record)
    (h : ∀ p ∈ rows, (relations.get p.1).property ∈ properties) :
    (attachAll rows roots).map (·.outside properties) = roots.map (·.outside properties) := by
  induction rows generalizing roots with
  | nil => rfl
  | cons p rest ih =>
    have hrest := ih ((relations.get p.1).attach (.ofRecords (relations.get p.1) p.2) roots)
      fun q hq => h q (List.mem_cons_of_mem _ hq)
    exact hrest.trans (map_outside_attach (h p List.mem_cons_self) ..)

/-- The roots with the relations of a plan attached. -/
def hydrated (f : Federation Collection) (plan : Plan f.schema.relations) (roots : List Record) :
    List Record :=
  let prepared := prepare plan.routing plan.hydrated roots
  attachAll (fetched f prepared.2) prepared.1

theorem answers_hydrate (plan : Plan f.schema.relations) (roots : List Record) :
    f.Answers (hydrate plan roots) (hydrated f plan roots) :=
  (answers_fetchAll _).bind (answers_pure _)

theorem map_outside_hydrated (plan : Plan f.schema.relations) (roots : List Record) :
    (hydrated f plan roots).map (·.outside plan.attached) =
      roots.map (·.outside plan.attached) := by
  have hmem : ∀ id ∈ plan.hydrated, (f.schema.relations.get id).property ∈ plan.attached :=
    fun id hid => List.mem_map_of_mem hid
  unfold hydrated
  rw [map_outside_attachAll, map_outside_prepare plan.routing plan.hydrated roots hmem]
  intro p hp
  obtain ⟨task, htask, rfl⟩ := List.mem_map.1 hp
  exact hmem task.id (id_mem_of_mem_prepare htask)

theorem length_hydrated (plan : Plan f.schema.relations) (roots : List Record) :
    (hydrated f plan roots).length = roots.length := by
  simpa using congrArg List.length (map_outside_hydrated plan roots)

end Hydration

/-! ## A shop

Customers and their orders, for statements about one federation. Its runs are
evaluated by `cbv`, which rewrites with the equations of the functions that they
call. Those of `≤`, `List.lookup`, `Option.isNone`, `Fin.cast` and `Prod.snd` are
the ones that the modules imported from Mathlib have. -/

namespace Shop

def record (fields : List (String × Int64)) : Record :=
  fields.foldl (fun r p => r.set p.1 (.number (.ofInt64 p.2))) .empty

def customer (id rank : Int64) : Record := record [("id", id), ("rank", rank)]

def order (customer price : Int64) : Record := record [("customer", customer), ("price", price)]

/-- The orders of a customer. -/
def orders : Relation := .hasMany "orders" "orders" "id" "customer"

/-- One order of a customer. -/
def anOrder : Relation := .hasOne "order" "orders" "id" "customer"

/-- That a customer has an order with a price. -/
def priced (relation : Relation) : Condition := ⟨"price", .notNull, .null, some relation.property⟩

/-- The customers with the relation's orders, where the orders at 8 are asked for by a condition of
the second list or of the first. -/
def atEight (relation : Relation) (disjunctive : Bool) : Request :=
  let condition := ⟨"price", .equal, .int 8, some relation.property⟩
  { Request.empty with
    filters := if disjunctive then [] else [condition]
    orFilters := if disjunctive then [condition] else [] }

def federation (relation : Relation) (limits : Limits) (customers orders : List Record) :
    Federation Collection where
  schema := ⟨⟨"customer", "id"⟩, [relation]⟩
  root := ⟨"customer", customers⟩
  bindings := [⟨relation, ⟨"order", orders⟩⟩]
  aligned := rfl
  limits := limits

/-- The one relation of a shop. -/
abbrev theRelation : Fin 1 := 0

theorem fitsWords {relation : Relation} {limits : Limits} {customers orders : List Record}
    (hcustomers : customers.length < 18446744073709551616)
    (horders : orders.length < 18446744073709551616) :
    (federation relation limits customers orders).FitsWords
  | .root => hcustomers
  | .relation ⟨0, _⟩ => horders

end Shop

end FederatedJoin
