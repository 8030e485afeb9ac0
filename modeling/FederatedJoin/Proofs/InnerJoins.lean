-- SUMMARY: Which inner relations of a shown root have a related record.
import FederatedJoin.Proofs.RelationFilters

/-!
# Inner joins

An inner join is enforced in two ways. A forward relation is put in the chain,
so a root that is shown has a row of it, if it has a key at all. For an owner
relation the root's foreign key must not be null, and that is all: a key that no
row has leaves the root without a related record.
-/

namespace FederatedJoin

namespace Relation

/-- The value of the relation's property shows a related record. -/
def IsFilled (relation : Relation) (value : Json) : Prop :=
  match relation.cardinality, value with
  | .many, .array items => items ≠ []
  | .one, .object _ => True
  | _, _ => False

theorem isFilled_attachment (relation : Relation) (rows : List Record) :
    relation.IsFilled (relation.attachment rows) ↔ rows ≠ [] := by
  unfold IsFilled attachment
  cases relation.cardinality with
  | many => simp
  | one => cases rows <;> simp [Record.toJson]

end Relation

namespace Federation

open Hydration Execution

variable {f : Federation Collection} {plan : Plan f.schema.relations} {r : Request}
  {limits : Limits} {root : Record} {id : RelationId f.schema.relations}

theorem mem_keyedRows {row : Record} :
    row ∈ f.keyedRows id root ↔
      ∃ key, root.joinKey? (f.schema.relations.get id).rootKeyField = some key ∧
        row ∈ f.rowsOf id key := by
  unfold keyedRows
  cases root.joinKey? (f.schema.relations.get id).rootKeyField with
  | none => simp
  | some key => simp

theorem relatedRows_ne_nil_iff : f.relatedRows r id root ≠ [] ↔
    ∃ row ∈ f.keyedRows id root,
      (r.about id).isDisjunctive = true ∨ (r.about id).searchTree.holds row = true := by
  unfold relatedRows Record.distinct
  rw [ne_eq, FirstOccurrence.eraseDupsBy_eq_nil_iff, List.filter_eq_nil_iff]
  simp only [not_forall, not_not, exists_prop, Bool.or_eq_true]

theorem isAsked_of_isInner (hinner : (f.schema.relations.get id).isInner = true) :
    Routing.isAsked r id = true := by
  rw [Routing.isAsked, hinner, Bool.true_or]

/-! ## Forward relations -/

/-- A root with a key has passed the chain, so it has a row that hydration shows. -/
theorem Qualifies.relatedRows_ne_nil (hfit : f.FitsWords) (hmade : plan.MadeFor limits r)
    (hroot : f.Qualifies plan root) (hid : id ∈ plan.strategy.chain) {key : JoinKey}
    (hkey : root.joinKey? (f.schema.relations.get id).rootKeyField = some key) :
    f.relatedRows r id root ≠ [] := by
  obtain ⟨row, hrow, hholds⟩ := hroot.exists_row hfit hmade hid hkey
  refine relatedRows_ne_nil_iff.2 ⟨row, mem_keyedRows.2 ⟨key, hkey, hrow⟩, ?_⟩
  -- disjunctive conditions were lost on the way to the chain, and are lost again here
  cases hjoint : (r.about id).isDisjunctive with
  | true => exact .inl rfl
  | false =>
    refine .inr (hholds fun hdisjunctive => ?_)
    rw [hjoint] at hdisjunctive
    cases hdisjunctive

/-- A key is all that a shown root needs for an inner forward relation. -/
theorem Qualifies.relatedRows_ne_nil_iff_of_forward (hfit : f.FitsWords)
    (hmade : plan.MadeFor limits r) (hroot : f.Qualifies plan root)
    (hid : id ∈ plan.strategy.chain) : f.relatedRows r id root ≠ [] ↔
      (root.joinKey? (f.schema.relations.get id).rootKeyField).isSome = true := by
  rw [Option.isSome_iff_exists]
  refine ⟨fun hrows => ?_, fun ⟨key, hkey⟩ => hroot.relatedRows_ne_nil hfit hmade hid hkey⟩
  obtain ⟨row, hrow, -⟩ := relatedRows_ne_nil_iff.1 hrows
  obtain ⟨key, hkey, -⟩ := mem_keyedRows.1 hrow
  exact ⟨key, hkey⟩

/-! ## Owner relations -/

/-- An accepted request has no conditions on an owner relation. -/
theorem holds_about_of_owner (hmade : plan.MadeFor limits r)
    (howner : (f.schema.relations.get id).owner = true) (row : Record) :
    (r.about id).searchTree.holds row = true := by
  by_cases hconditions : (r.about id).filters ≠ [] ∨ (r.about id).orFilters ≠ []
  · have hforward := hmade.owner_eq_false_of_mem_chain (hmade.mem_chain_of_conditions hconditions)
    rw [howner] at hforward
    cases hforward
  · obtain ⟨hfilters, hor⟩ := not_or.1 hconditions
    rw [Request.holds_searchTree_of_filters (not_not.1 hor) rfl, not_not.1 hfilters]
    rfl

/-- The rows with the root's foreign key are shown, if there are any. -/
theorem relatedRows_ne_nil_iff_of_owner (hmade : plan.MadeFor limits r)
    (howner : (f.schema.relations.get id).owner = true) :
    f.relatedRows r id root ≠ [] ↔ f.keyedRows id root ≠ [] := by
  rw [relatedRows_ne_nil_iff]
  refine ⟨fun ⟨row, hrow, _⟩ => List.ne_nil_of_mem hrow, fun hrows => ?_⟩
  obtain ⟨row, hrow⟩ := List.exists_mem_of_ne_nil _ hrows
  exact ⟨row, hrow, .inr (holds_about_of_owner hmade howner row)⟩

/-- The foreign key of a shown root is not null. -/
theorem Qualifies.isNull_value_eq_false (hmade : plan.MadeFor limits r)
    (hroot : f.Qualifies plan root) (hinner : (f.schema.relations.get id).isInner = true)
    (howner : (f.schema.relations.get id).owner = true) :
    (root.value (f.schema.relations.get id).foreignKey).isNull = false := by
  obtain ⟨c, hc, hsame⟩ := Routing.exists_check_of_owner (isAsked_of_isInner (r := r) hinner) howner
  rw [hmade.routing_eq] at hc
  have hholds := List.all_eq_true.1 hroot.filters c hc
  rw [Condition.holds_of_sameCheck_notNull hsame] at hholds
  simpa using hholds

/-! ## Inner relations of a page -/

/-- What the record shows for the inner relations of its root. -/
structure ShowsInner (f : Federation Collection) (plan : Plan f.schema.relations)
    (root record : Record) : Prop where
  stored : root ∈ f.root.rows
  outside_eq : record.outside plan.attached = root.outside plan.attached
  /-- Forward relations are filled for a root with a key. -/
  forward : ∀ id ∈ plan.hydrated, (f.schema.relations.get id).isInner = true →
    (f.schema.relations.get id).owner = false → ∃ value,
      record.get? (f.schema.relations.get id).property = some value ∧
      ((f.schema.relations.get id).IsFilled value ↔
        (root.joinKey? (f.schema.relations.get id).rootKeyField).isSome = true) ∧
      (plan.isRootOrdered = false → (f.schema.relations.get id).IsFilled value)
  /-- Owner relations are filled for a root whose foreign key some row has. -/
  owner : ∀ id ∈ plan.hydrated, (f.schema.relations.get id).isInner = true →
    (f.schema.relations.get id).owner = true → ∃ value,
      record.get? (f.schema.relations.get id).property = some value ∧
      (root.value (f.schema.relations.get id).foreignKey).isNull = false ∧
      ((f.schema.relations.get id).IsFilled value ↔ f.keyedRows id root ≠ [])

theorem Shows.showsInner (hfit : f.FitsWords) (hmade : plan.MadeFor limits r) {record : Record}
    (h : f.Shows r plan root record) (hroot : f.Qualifies plan root) :
    f.ShowsInner plan root record where
  stored := hroot.stored
  outside_eq := h.outside_eq
  forward id hid hinner hforward := by
    have hchain := hmade.mem_chain_of_isAsked (isAsked_of_isInner hinner) hforward
    have hfilled : (f.schema.relations.get id).IsFilled
        ((f.schema.relations.get id).attachment (f.relatedRows r id root)) ↔
          (root.joinKey? (f.schema.relations.get id).rootKeyField).isSome = true := by
      rw [Relation.isFilled_attachment]
      exact hroot.relatedRows_ne_nil_iff_of_forward hfit hmade hchain
    refine ⟨_, h.get?_property id hid, hfilled, fun hordered => hfilled.2 ?_⟩
    exact Option.isSome_iff_exists.2 (hroot.exists_key hmade hchain hordered)
  owner id hid hinner howner := by
    refine ⟨_, h.get?_property id hid, hroot.isNull_value_eq_false hmade hinner howner, ?_⟩
    rw [Relation.isFilled_attachment]
    exact relatedRows_ne_nil_iff_of_owner hmade howner

/-- On a page, an inner forward relation is filled for every root with a key, and so for every root
unless the root's provider orders the keys; an inner owner relation is filled exactly for the
roots whose foreign key some row has. -/
theorem answer_inner_filled (hfit : f.FitsWords) (hvalid : f.schema.validate = .ok ())
    (hplan : f.plan r = .ok plan) (hseparate : Separate plan.hydrated) :
    ∃ page shown, f.answer r = .ok page ∧
      List.Forall₂ (f.ShowsInner plan) shown page.data := by
  have hmade := Plan.make_eq_ok_iff.1 hplan
  obtain ⟨page, shown, hanswer, hdata, hshown⟩ := answer_shows hfit hplan
  refine ⟨page, shown, hanswer, ?_⟩
  rw [hdata]
  have hall := forall₂_shows_hydrated hfit hvalid hmade hseparate shown
  exact ((List.forall₂_and_left _ _).2 ⟨hshown, hall⟩).imp
    fun _ _ h => h.2.showsInner hfit hmade h.1

end Federation

namespace Shop

open Federation

/-- A tier of customers, named by the rank of each. -/
def tier : Relation := (Relation.belongsTo "tier" "tiers" "id" "rank").withJoin .inner

/-- A customer of rank 5 and one of rank 6. -/
def tiered (tiers : List Record) : Federation Collection :=
  federation tier ⟨10, 100, 10, true⟩ [customer 1 5, customer 2 6] tiers

def tieredPlan (tiers : List Record) : Plan (tiered tiers).schema.relations where
  routing := .ofRequest _ .empty
  sorts := ⟨[], []⟩
  strategy := .rootFirst
  hydrated := [theRelation]
  limit := 10
  offset := 0

theorem plan_tiered (tiers : List Record) :
    (tiered tiers).plan .empty = .ok (tieredPlan tiers) := rfl

theorem answer_inner_filled_tiered : ∃ page shown,
    (tiered [record [("id", 5)]]).answer .empty = .ok page ∧ page.data.length = 2 ∧
    List.Forall₂ ((tiered [record [("id", 5)]]).ShowsInner (tieredPlan _)) shown page.data := by
  obtain ⟨page, shown, hanswer, hall⟩ := answer_inner_filled (fitsWords (by decide) (by decide))
    rfl (plan_tiered [record [("id", 5)]]) (Hydration.separate_singleton _)
  have hcount : ((tiered [record [("id", 5)]]).answer .empty).map (·.data.length) = .ok 2 := by cbv
  exact ⟨page, shown, hanswer, Except.ok.inj (hanswer ▸ hcount), hall⟩

/-- The second customer is shown, though its tier is not stored. -/
theorem not_forall_answer_inner_filled : ¬ ∀ (f : Federation Collection) (r : Request)
    (plan : Plan f.schema.relations), f.FitsWords → f.schema.validate = .ok () →
    f.plan r = .ok plan →
    ∃ page, f.answer r = .ok page ∧ ∀ record ∈ page.data, ∀ id ∈ plan.hydrated,
      (f.schema.relations.get id).isInner = true → ∃ value,
        record.get? (f.schema.relations.get id).property = some value ∧
        (f.schema.relations.get id).IsFilled value := by
  intro h
  obtain ⟨page, hanswer, hfilled⟩ := h (tiered [record [("id", 5)]]) .empty (tieredPlan _)
    (fitsWords (by decide) (by decide)) rfl (plan_tiered _)
  have hpage : ((tiered [record [("id", 5)]]).answer .empty).map
      (fun page => page.data.map (·.get? "tier")) =
        .ok [some (record [("id", 5)]).toJson, some .null] := by cbv
  rw [hanswer] at hpage
  obtain ⟨shown, hshown, hnull⟩ : ∃ shown ∈ page.data, shown.get? "tier" = some .null := by
    have hmem : some Json.null ∈ page.data.map (·.get? "tier") := by
      rw [show page.data.map (·.get? "tier") = _ from Except.ok.inj hpage]
      exact List.mem_cons_of_mem _ List.mem_cons_self
    exact List.mem_map.1 hmem
  obtain ⟨value, hvalue, hisFilled⟩ := hfilled shown hshown theRelation List.mem_cons_self rfl
  obtain rfl : Json.null = value := Option.some.inj (hnull.symm.trans hvalue)
  exact hisFilled

end Shop

end FederatedJoin
