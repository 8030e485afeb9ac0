-- SUMMARY: Roots first, every root of the provider's page is kept, with each hydrated relation under its property.
import FederatedJoin.Proofs.Chains
import FederatedJoin.Proofs.Tags
import FederatedJoin.Proofs.Writes

/-!
# Left joins

With the roots first, a federated page is the page of the root's provider with the
relations attached. No root is lost, added or moved, whether a relation has rows
for it or not, and nothing about it changes but the properties of the hydrated
relations, which hold an array, an object or null. This holds of whatever the
providers answer: rows without a key, or with a key that no root has, attach
nowhere.
-/

namespace FederatedJoin

/-! ## Forms of attached values -/

namespace Relation

/-- The value has the form of the relation's property: an array of records, or a record or null. -/
def Fits (relation : Relation) (value : Json) : Prop :=
  match relation.cardinality with
  | .many => ∃ rows : List Record, value = .array (rows.map (·.toJson))
  | .one => value = .null ∨ ∃ row : Record, value = row.toJson

theorem fits_attachment (relation : Relation) (rows : List Record) :
    relation.Fits (relation.attachment rows) := by
  unfold Fits attachment
  cases relation.cardinality with
  | many => exact ⟨rows, rfl⟩
  | one =>
    cases rows with
    | nil => exact .inl rfl
    | cons row rest => exact .inr ⟨row, rfl⟩

theorem fits_emptyValue (relation : Relation) : relation.Fits relation.emptyValue :=
  relation.attachment_nil ▸ relation.fits_attachment []

end Relation

theorem Hydration.fits_valueAfter {relations : List Relation}
    (front : List (RelationId relations × List Record)) (id : RelationId relations)
    (rows : List Record) (root : Record) :
    (relations.get id).Fits (valueAfter front id rows root) := by
  unfold valueAfter
  split
  · exact Relation.fits_emptyValue _
  · exact Relation.fits_attachment _ _

/-! ## Completed roots -/

/-- The record is the root with every hydrated relation under its property, and nothing else. -/
structure Plan.Completes {relations : List Relation} (plan : Plan relations)
    (root record : Record) : Prop where
  other_fields : ∀ field, (∀ id ∈ plan.hydrated, (relations.get id).property ≠ field) →
    record.get? field = root.get? field
  hydrated : ∀ id ∈ plan.hydrated, ∃ value,
    record.get? (relations.get id).property = some value ∧ (relations.get id).Fits value
  not_hydrated : ∀ id ∉ plan.hydrated,
    record.get? (relations.get id).property = root.get? (relations.get id).property

namespace Hydration

variable {relations : List Relation} {plan : Plan relations}

/-- One write for each hydrated relation completes a root. -/
theorem completes_attachAllTo
    (hproperties : Function.Injective fun id : RelationId relations => (relations.get id).property)
    (hnodup : plan.hydrated.Nodup) {writes : List (RelationId relations × List Record)}
    (hwrites : (writes.map (·.1)).Perm plan.hydrated) (root : Record) :
    plan.Completes root (attachAllTo writes root) := by
  have hother : ∀ field, (∀ id ∈ plan.hydrated, (relations.get id).property ≠ field) →
      (attachAllTo writes root).get? field = root.get? field := by
    intro field hfield
    apply get?_attachAllTo_of_not_writes
    rintro ⟨p, hp, heq⟩
    exact hfield p.1 (hwrites.mem_iff.1 (List.mem_map_of_mem hp)) heq
  refine ⟨hother, fun id hid => ?_, fun id hid => hother _ fun other hmem heq => ?_⟩
  · obtain ⟨p, hp, rfl⟩ := List.mem_map.1 (hwrites.mem_iff.2 hid)
    obtain ⟨front, back, rfl⟩ := List.append_of_mem hp
    have hlast : ¬ Writes back (relations.get p.1).property := by
      rintro ⟨q, hq, heq⟩
      have hids := hwrites.nodup_iff.2 hnodup
      rw [List.map_append, List.map_cons] at hids
      have hback := (List.nodup_cons.1 (List.nodup_append'.1 hids).2.1).1
      exact hback (hproperties heq ▸ List.mem_map_of_mem hq)
    exact ⟨_, get?_attachAllTo hlast root, fits_valueAfter front p.1 p.2 root⟩
  · exact hid (hproperties heq ▸ hmem)

theorem returns_hydrate_completes
    (hproperties : Function.Injective fun id : RelationId relations => (relations.get id).property)
    (hnodup : plan.hydrated.Nodup) (roots : List Record) :
    Fetch.Returns (hydrate plan roots) (List.Forall₂ plan.Completes roots) := by
  intro b t records t' hrun
  obtain ⟨writes, hwrites, rfl⟩ := returns_hydrate plan roots b t records t' hrun
  rw [List.forall₂_map_right_iff, List.forall₂_same]
  intro root _
  exact completes_attachAllTo hproperties hnodup hwrites root

end Hydration

/-! ## Pages -/

namespace Execution

variable {relations : List Relation} {plan : Plan relations}

theorem pageOfPlan_of_rootFirst (h : plan.strategy = .rootFirst) (limits : Limits) :
    pageOfPlan plan limits = rootFirst plan := by
  unfold pageOfPlan
  rw [h]

/-- The page of the root's provider, each root completed. -/
theorem rootFirst_wp
    (hproperties : Function.Injective fun id : RelationId relations => (relations.get id).property)
    (hnodup : plan.hydrated.Nodup) (b : Backend relations) (t : List (Call relations)) :
    (rootFirst plan).wp b t fun res _ => ∀ page, res = .ok page →
      ∃ source, b.getMany t .root (windowed plan (rootRequest plan)) = .ok source ∧
        List.Forall₂ plan.Completes source.data page.data ∧ page.total = source.total := by
  refine Fetch.wp_getMany_bind (fun source hsource => ?_) fun e _ page h => nomatch h
  have hattached := Hydration.returns_hydrate_completes hproperties hnodup source.data
  have hpage : Fetch.Returns (Hydration.hydrate plan source.data >>= fun roots =>
      pure (pageOf plan roots source.total)) fun page =>
        List.Forall₂ plan.Completes source.data page.data ∧ page.total = source.total :=
    hattached.bind fun records hrecords => Fetch.returns_pure ⟨hrecords, rfl⟩
  exact Fetch.wp_mono hpage.wp fun res _ h page hres => ⟨source, hsource, h page hres⟩

end Execution

namespace Federation

open Execution

variable {α : Type} {f : Federation α} {r : Request} {plan : Plan f.schema.relations}

/-- If a page is answered with the roots first, it is the page of the root's provider, root for
root, each with all hydrated relations. -/
theorem getMany_completes_roots (hvalid : f.schema.validate = .ok ()) (hplan : f.plan r = .ok plan)
    (hfirst : plan.strategy = .rootFirst) (b : Backend f.schema.relations) {page : Page}
    (hpage : ((f.getMany r).run b).1 = .ok page) :
    ∃ source, b.getMany [] .root (windowed plan (rootRequest plan)) = .ok source ∧
      List.Forall₂ plan.Completes source.data page.data ∧ page.total = source.total := by
  rw [getMany_of_plan hplan, pageOfPlan_of_rootFirst hfirst] at hpage
  have hnodup := (Plan.make_eq_ok_iff.1 hplan).nodup_hydrated
  exact rootFirst_wp (Schema.property_injective hvalid) hnodup b [] page hpage

end Federation

namespace Shop

open Execution

/-- Customers with all their orders and with one of them. -/
def doubled : Federation Unit where
  schema := ⟨⟨"customer", "id"⟩, [orders, anOrder]⟩
  root := ()
  bindings := [⟨orders, ()⟩, ⟨anOrder, ()⟩]
  aligned := rfl
  limits := ⟨3, 100, 10, true⟩

/-- Two customers and a record without a key; the orders are others at every call, and some are
of customers who do not exist. -/
def fickle : Backend doubled.schema.relations where
  getMany trace source _ :=
    match source with
    | .root => .ok (.ofWindow [customer 1 0, customer 2 0, record [("rank", 0)]] 7 0 10)
    | .relation _ =>
      let price := Int64.ofNat trace.length
      .ok (.ofWindow [order 1 price, order 9 price, record [("price", price)]] 0 0 10)
  getOne _ _ _ := .error (.failure (.notFound "customer"))

def doubledPlan : Plan doubled.schema.relations where
  routing := .ofRequest _ .empty
  sorts := ⟨[], []⟩
  strategy := .rootFirst
  hydrated := List.finRange 2
  limit := 10
  offset := 0

theorem getMany_completes_fickle : ∃ page, ((doubled.getMany .empty).run fickle).1 = .ok page ∧
    page.data.map (·.get? "orders") =
      [some (.array [(order 1 1).toJson]), some (.array []), some (.array [])] ∧
    ∃ source, fickle.getMany [] .root (windowed doubledPlan (rootRequest doubledPlan)) =
      .ok source ∧ List.Forall₂ doubledPlan.Completes source.data page.data ∧
      page.total = source.total := by
  have hplan : doubled.plan .empty = .ok doubledPlan := rfl
  have hshown : ((doubled.getMany .empty).run fickle).1.map
      (fun page => page.data.map (·.get? "orders")) =
        .ok [some (.array [(order 1 1).toJson]), some (.array []), some (.array [])] := by cbv
  cases hpage : ((doubled.getMany .empty).run fickle).1 with
  | error e =>
    rw [hpage] at hshown
    cases hshown
  | ok page =>
    rw [hpage] at hshown
    exact ⟨page, rfl, Except.ok.inj hshown,
      Federation.getMany_completes_roots rfl hplan rfl fickle hpage⟩

end Shop

end FederatedJoin
