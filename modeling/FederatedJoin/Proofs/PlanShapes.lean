-- SUMMARY: The shape of every plan: strategy, driving relation, chain and hydrated relations, told from the request alone.
import FederatedJoin.Proofs.Declarations

/-!
# Shapes of plans

Execution reads the relations of a plan and never the request, so it relies on what
holds of them together: which relation drives, that the chain behind it names the
roots by one field, that the chain is hydrated as well. All of this can be told from
the request and the declarations. The relations of the chain are those that a tag
refers to and the inner joins whose rows name the roots. The latter are hydrated even
if the request lists other relations only and refers to them nowhere.
-/

namespace FederatedJoin

/-! ## References to relations -/

/-- An inner join whose rows name the roots. -/
def Relation.IsForwardInner (relation : Relation) : Prop :=
  relation.owner = false ∧ relation.isInner = true

instance (relation : Relation) : Decidable relation.IsForwardInner :=
  inferInstanceAs (Decidable (_ ∧ _))

namespace Request

/-- Some condition or sort key has a tag. -/
def IsTagged (r : Request) : Prop :=
  (∃ c ∈ r.conditions, c.relation ≠ none) ∨ ∃ key ∈ r.sorts, key.relation ≠ none

/-- Some condition or sort key is tagged with the relation. -/
def Refers (r : Request) (relation : Relation) : Prop :=
  r.Constrains relation ∨ r.SortsBy relation

/-- The request lists the relation or refers to it. A request that lists none selects all. -/
def Selects (r : Request) (relation : Relation) : Prop :=
  r.relations = [] ∨ relation.property ∈ r.relations ∨ r.Refers relation

instance (r : Request) (relation : Relation) : Decidable (r.Refers relation) :=
  inferInstanceAs (Decidable (_ ∨ _))

instance (r : Request) (relation : Relation) : Decidable (r.Selects relation) :=
  inferInstanceAs (Decidable (_ ∨ _))

/-- The selected relations in order of declaration. -/
def selected (relations : List Relation) (r : Request) : List (RelationId relations) :=
  (List.finRange relations.length).filter fun id => r.Selects (relations.get id)

variable {relations : List Relation} {r : Request} {relation : Relation}

theorem Refers.isTagged (h : r.Refers relation) : r.IsTagged := by
  rcases h with ⟨c, hc, htag⟩ | ⟨key, hkey, htag⟩
  · exact .inl ⟨c, hc, by simp [htag]⟩
  · exact .inr ⟨key, hkey, by simp [htag]⟩

/-- Where no owner relation is constrained or sorted by, the rows that have to name the roots are
those of the relations referred to and of the forward inner joins. -/
theorem joins_iff (howners : Requirement.Met relations r .owners)
    (hrelation : relation ∈ relations) :
    r.Joins relation ↔ r.Refers relation ∨ relation.IsForwardInner := by
  constructor
  · rintro ⟨hforward, hinner | hreferred⟩
    · exact .inr ⟨hforward, hinner⟩
    · exact .inl hreferred
  · rintro (hreferred | ⟨hforward, hinner⟩)
    · refine ⟨Bool.eq_false_iff.2 fun howner => ?_, .inr hreferred⟩
      obtain ⟨hconstrained, hsorted⟩ := howners relation hrelation howner
      exact hreferred.elim hconstrained hsorted
    · exact ⟨hforward, .inl hinner⟩

/-- Every tag refers to a declared relation. -/
theorem exists_refers_of_isTagged (htags : Requirement.Met relations r .tags)
    (hsorts : Requirement.Met relations r .sorts) (h : r.IsTagged) :
    ∃ relation ∈ relations, r.Refers relation := by
  rcases h with ⟨c, hc, htag⟩ | ⟨key, hkey, htag⟩
  · obtain ⟨name, hname⟩ := Option.ne_none_iff_exists'.1 htag
    obtain ⟨relation, hrelation, rfl⟩ := htags c hc name hname
    exact ⟨relation, hrelation, .inl ⟨c, hc, hname⟩⟩
  · obtain ⟨name, hname⟩ := Option.ne_none_iff_exists'.1 htag
    obtain ⟨relation, hrelation, rfl⟩ := hsorts.1 key hkey name hname
    exact ⟨relation, hrelation, .inr ⟨key, hkey, hname⟩⟩

end Request

/-! ## The chain -/

namespace Strategy

variable {relations : List Relation}

theorem head?_chain (s : Strategy relations) : s.chain.head? = s.driving? := by
  cases s <;> rfl

theorem isSome_driving? (s : Strategy relations) : s.driving?.isSome = s.isRelationFirst := by
  cases s <;> rfl

theorem eq_nil_of_rootFirst {s : Strategy relations} (h : s.isRelationFirst = false) :
    s.chain = [] ∧ s.driving? = none := by
  cases s with
  | rootFirst => exact ⟨rfl, rfl⟩
  | relationFirst driving narrowing => cases h

end Strategy

namespace Plan

variable {relations : List Relation} {limits : Limits} {r : Request} {plan : Plan relations}

namespace MadeFor

theorem driving?_eq (h : plan.MadeFor limits r) :
    plan.strategy.driving? = plan.sorts.driving?.or plan.routing.constrained.head? := by
  rw [← h.strategy_eq]
  unfold Strategy.select
  cases plan.sorts.driving?.or plan.routing.constrained.head? <;> rfl

/-- Behind the driving relation the chain is in order of declaration. -/
theorem tail_chain_sublist (h : plan.MadeFor limits r) :
    plan.strategy.chain.tail.Sublist (List.finRange relations.length) := by
  rw [← h.strategy_eq]
  unfold Strategy.select
  cases plan.sorts.driving?.or plan.routing.constrained.head? with
  | none => exact List.nil_sublist _
  | some driving => exact List.filter_sublist.trans List.filter_sublist

theorem nodup_chain (h : plan.MadeFor limits r) : plan.strategy.chain.Nodup := by
  have htail := (List.nodup_finRange _).sublist h.tail_chain_sublist
  rw [← h.strategy_eq] at htail ⊢
  unfold Strategy.select at htail ⊢
  cases hdriving : plan.sorts.driving?.or plan.routing.constrained.head? with
  | none => exact List.nodup_nil
  | some driving =>
    rw [hdriving] at htail
    refine List.nodup_cons.2 ⟨fun hmem => ?_, htail⟩
    have hne := (List.mem_filter.1 hmem).2
    simp at hne

/-- All relations of the chain name the roots by the field of the driving one. -/
theorem rootKeyField_eq (h : plan.MadeFor limits r) {id driving : RelationId relations}
    (hid : id ∈ plan.strategy.chain) (hdriving : plan.strategy.driving? = some driving) :
    (relations.get id).rootKeyField = (relations.get driving).rootKeyField := by
  cases hstrategy : plan.strategy with
  | rootFirst =>
    rw [hstrategy] at hdriving
    cases hdriving
  | relationFirst first narrowing =>
    rw [hstrategy] at hid hdriving
    obtain rfl := Option.some.inj hdriving
    exact h.rootKeyField_of_mem_chain hstrategy hid

end MadeFor

/-- The chain is made of the relations whose rows have to name the roots. -/
theorem mem_chain_iff_joins (h : (relations.map (·.property)).Nodup)
    (hplan : make relations limits r = .ok plan) (id : RelationId relations) :
    id ∈ plan.strategy.chain ↔ r.Joins (relations.get id) := by
  have hmade := make_eq_ok_iff.1 hplan
  have hmet := (exists_make_iff h limits r).1 ⟨plan, hplan⟩
  have hconstrained := Requirement.mem_constrained_iff_joins (r := r) h (hmet .owners) id
  rw [hmade.routing_eq] at hconstrained
  constructor
  · intro hid
    rcases hmade.mem_constrained_of_mem_chain hid with hid | hsorted
    · exact hconstrained.1 hid
    · apply Requirement.joins_of_sortsBy (hmet .owners) (List.get_mem relations id)
      exact (Requirement.sortsBy_iff_driving? h (hmet .sorts) hmade.sorts_eq id).2 hsorted
  · exact fun hjoins => hmade.mem_chain_of_mem_constrained (hconstrained.2 hjoins)

theorem isRelationFirst_iff (h : (relations.map (·.property)).Nodup)
    (hplan : make relations limits r = .ok plan) : plan.strategy.isRelationFirst = true ↔
      r.IsTagged ∨ ∃ relation ∈ relations, relation.IsForwardInner := by
  have hmet := (exists_make_iff h limits r).1 ⟨plan, hplan⟩
  have hjoins : plan.strategy.isRelationFirst = true ↔
      ∃ relation ∈ relations, r.Joins relation := by
    have hfirst := strategy_eq_rootFirst_iff h hplan
    cases hstrategy : plan.strategy with
    | rootFirst => simpa [Strategy.isRelationFirst, hstrategy] using hfirst
    | relationFirst driving narrowing => simpa [Strategy.isRelationFirst, hstrategy] using hfirst
  rw [hjoins]
  constructor
  · rintro ⟨relation, hrelation, hjoins⟩
    rcases (Request.joins_iff (hmet .owners) hrelation).1 hjoins with hreferred | hinner
    · exact .inl hreferred.isTagged
    · exact .inr ⟨relation, hrelation, hinner⟩
  · rintro (htagged | ⟨relation, hrelation, hinner⟩)
    · obtain ⟨relation, hrelation, hreferred⟩ :=
        Request.exists_refers_of_isTagged (hmet .tags) (hmet .sorts) htagged
      exact ⟨relation, hrelation, (Request.joins_iff (hmet .owners) hrelation).2 (.inl hreferred)⟩
    · exact ⟨relation, hrelation, (Request.joins_iff (hmet .owners) hrelation).2 (.inr hinner)⟩

/-! ## The driving relation -/

theorem driving?_of_sortsBy (h : (relations.map (·.property)).Nodup)
    (hplan : make relations limits r = .ok plan) {id : RelationId relations}
    (hsorted : r.SortsBy (relations.get id)) : plan.strategy.driving? = some id := by
  have hmade := make_eq_ok_iff.1 hplan
  have hmet := (exists_make_iff h limits r).1 ⟨plan, hplan⟩
  rw [hmade.driving?_eq,
    (Requirement.sortsBy_iff_driving? h (hmet .sorts) hmade.sorts_eq id).1 hsorted]
  rfl

/-- Without a relation to sort by, the first declared of the constrained ones drives. -/
theorem driving?_of_unsorted (h : (relations.map (·.property)).Nodup)
    (hplan : make relations limits r = .ok plan)
    (hunsorted : ∀ id : RelationId relations, ¬ r.SortsBy (relations.get id)) :
    plan.strategy.driving? = (List.finRange relations.length).find? fun id =>
      r.Constrains (relations.get id) ∨ (relations.get id).IsForwardInner := by
  have hmade := make_eq_ok_iff.1 hplan
  have hmet := (exists_make_iff h limits r).1 ⟨plan, hplan⟩
  have hnone : plan.sorts.driving? = none := by
    cases hdriving : plan.sorts.driving? with
    | none => rfl
    | some id =>
      have hiff := Requirement.sortsBy_iff_driving? h (hmet .sorts) hmade.sorts_eq id
      exact absurd (hiff.2 hdriving) (hunsorted id)
  rw [hmade.driving?_eq, hnone, Option.none_or, Routing.constrained, List.head?_filter]
  apply List.find?_congr
  intro id _
  have hconstrained := Requirement.mem_constrained_ofRequest_iff (r := r) h id
  rw [hmade.routing_eq, mem_constrained_iff,
    Request.joins_iff (hmet .owners) (List.get_mem relations id)] at hconstrained
  rw [Bool.eq_iff_iff, hconstrained, decide_eq_true_eq, Request.Refers, or_iff_left (hunsorted id),
    ← or_assoc, or_self]

/-! ## Shapes -/

/-- Every relation that the plan names anywhere. -/
def ids (plan : Plan relations) : List (RelationId relations) :=
  plan.strategy.driving?.toList ++ plan.strategy.chain ++ plan.hydrated
    ++ plan.sorts.relationSorts.map (·.1) ++ plan.routing.existence

/-- What execution relies on, in terms of the request and the declarations. -/
structure Shape (plan : Plan relations) (r : Request) : Prop where
  isRelationFirst_iff : plan.strategy.isRelationFirst = true ↔
    r.IsTagged ∨ ∃ relation ∈ relations, relation.IsForwardInner
  driving_isSome : plan.strategy.driving?.isSome = plan.strategy.isRelationFirst
  driving_of_sortsBy : ∀ id, r.SortsBy (relations.get id) → plan.strategy.driving? = some id
  driving_of_unsorted : (∀ id : RelationId relations, ¬ r.SortsBy (relations.get id)) →
    plan.strategy.driving? = (List.finRange relations.length).find? fun id =>
      r.Constrains (relations.get id) ∨ (relations.get id).IsForwardInner
  head?_chain : plan.strategy.chain.head? = plan.strategy.driving?
  nodup_chain : plan.strategy.chain.Nodup
  tail_chain_ascends : plan.strategy.chain.tail.Pairwise (· < ·)
  mem_chain_iff : ∀ id, id ∈ plan.strategy.chain ↔ r.Joins (relations.get id)
  chain_forward : ∀ id ∈ plan.strategy.chain, (relations.get id).owner = false
  chain_key : ∀ id ∈ plan.strategy.chain, ∀ driving, plan.strategy.driving? = some driving →
    (relations.get id).rootKeyField = (relations.get driving).rootKeyField
  of_rootFirst : plan.strategy.isRelationFirst = false →
    plan.strategy.chain = [] ∧ plan.strategy.driving? = none
  hydrated_ascends : plan.hydrated.Pairwise (· < ·)
  chain_subset_hydrated : plan.strategy.chain ⊆ plan.hydrated
  ids_lt : ∀ id ∈ plan.ids, id.val < relations.length

theorem shape_of_make (h : (relations.map (·.property)).Nodup)
    (hplan : make relations limits r = .ok plan) : plan.Shape r := by
  have hmade := make_eq_ok_iff.1 hplan
  exact
    { isRelationFirst_iff := isRelationFirst_iff h hplan
      driving_isSome := plan.strategy.isSome_driving?
      driving_of_sortsBy := fun id => driving?_of_sortsBy h hplan
      driving_of_unsorted := driving?_of_unsorted h hplan
      head?_chain := plan.strategy.head?_chain
      nodup_chain := hmade.nodup_chain
      tail_chain_ascends := (List.pairwise_lt_finRange _).sublist hmade.tail_chain_sublist
      mem_chain_iff := mem_chain_iff_joins h hplan
      chain_forward := fun id => hmade.owner_eq_false_of_mem_chain
      chain_key := fun id hid driving => hmade.rootKeyField_eq hid
      of_rootFirst := Strategy.eq_nil_of_rootFirst
      hydrated_ascends := hmade.pairwise_hydrated
      chain_subset_hydrated := fun id => hmade.mem_hydrated_of_mem_chain
      ids_lt := fun id _ => id.isLt }

/-! ## Hydrated relations -/

theorem mem_filterMap_resolve?_iff (h : (relations.map (·.property)).Nodup) (names : List String)
    (id : RelationId relations) :
    id ∈ names.filterMap (Relation.resolve? relations) ↔ (relations.get id).property ∈ names := by
  rw [List.mem_filterMap]
  constructor
  · rintro ⟨name, hname, hresolved⟩
    exact Relation.property_of_resolve? hresolved ▸ hname
  · exact fun hname => ⟨_, hname, Relation.resolve?_property h id⟩

/-- Hydrated are the selected relations and the forward inner joins, selected or not. -/
theorem hydrated_eq_filter_selects (h : (relations.map (·.property)).Nodup)
    (hplan : make relations limits r = .ok plan) :
    plan.hydrated = (List.finRange relations.length).filter fun id =>
      r.Selects (relations.get id) ∨ (relations.get id).IsForwardInner := by
  have hmet := (exists_make_iff h limits r).1 ⟨plan, hplan⟩
  rw [(make_eq_ok_iff.1 hplan).hydrated_eq_filter]
  apply List.filter_congr
  intro id _
  rw [Bool.eq_iff_iff, decide_eq_true_eq, Bool.or_eq_true, List.isEmpty_iff, List.contains_iff_mem,
    List.mem_append, mem_filterMap_resolve?_iff h, mem_chain_iff_joins h hplan,
    Request.joins_iff (hmet .owners) (List.get_mem relations id), Request.Selects]
  simp only [or_assoc]

/-- A plan hydrates what the request selects, in order of declaration, unless a forward inner join
is not selected: that one is hydrated nevertheless. -/
theorem hydrated_eq_selected_iff (h : (relations.map (·.property)).Nodup)
    (hplan : make relations limits r = .ok plan) :
    (r.relations = [] → plan.hydrated = List.finRange relations.length) ∧
      (∀ id, id ∈ plan.hydrated ↔
        r.Selects (relations.get id) ∨ (relations.get id).IsForwardInner) ∧
      (plan.hydrated = r.selected relations ↔
        ∀ relation ∈ relations, relation.IsForwardInner → r.Selects relation) := by
  have hhydrated := hydrated_eq_filter_selects h hplan
  have hmem (id : RelationId relations) : id ∈ plan.hydrated ↔
      r.Selects (relations.get id) ∨ (relations.get id).IsForwardInner := by
    simp [hhydrated]
  refine ⟨fun hnone => ?_, hmem, fun heq relation hrelation hinner => ?_, fun hselects => ?_⟩
  · rw [hhydrated]
    exact List.filter_eq_self.2 fun id _ => decide_eq_true (.inl (.inl hnone))
  · obtain ⟨id, rfl⟩ := List.get_of_mem hrelation
    have hid : id ∈ r.selected relations := heq ▸ (hmem id).2 (.inr hinner)
    exact of_decide_eq_true (List.mem_filter.1 hid).2
  · rw [hhydrated, Request.selected]
    apply List.filter_congr
    intro id _
    rw [decide_eq_decide]
    exact or_iff_left_of_imp (hselects _ (List.get_mem relations id))

end Plan

namespace Shop

/-- Customers with their orders, the tier they belong to and one order by itself. -/
def threeRelations (join : Join) : List Relation :=
  [(orders.withJoin join).withDistinctFilter ⟨"latest", .equal, .bool true, none⟩,
    .belongsTo "tier" "tiers" "id" "rank", anOrder]

/-- Asks twice for the tier, and sorts by the price of the one order. -/
def tierByPrice : Request :=
  { Request.empty with
    sorts := [⟨"price", .ascending, some "order"⟩]
    relations := ["tier", "tier"] }

/-- The one order drives, and the orders that an inner join asks for narrow its keys. -/
theorem shape_tierByPrice : ∃ plan : Plan (threeRelations .inner),
    Plan.make (threeRelations .inner) ⟨3, 100, 10, true⟩ tierByPrice = .ok plan ∧
      plan.Shape tierByPrice ∧ plan.strategy.chain.map Fin.val = [2, 0] :=
  ⟨_, rfl, Plan.shape_of_make (by decide) rfl, rfl⟩

/-- Listed twice and sorted by, two of the relations are hydrated. -/
theorem hydrated_tierByPrice : ∃ plan : Plan (threeRelations .left),
    Plan.make (threeRelations .left) ⟨3, 100, 10, true⟩ tierByPrice = .ok plan ∧
      plan.hydrated = tierByPrice.selected (threeRelations .left) ∧
      plan.hydrated.map Fin.val = [1, 2] := by
  refine ⟨_, rfl, ?_, rfl⟩
  apply (Plan.hydrated_eq_selected_iff (by decide) rfl).2.2.2
  decide

/-- An inner join makes the one order hydrated that nothing in the request refers to. -/
theorem not_forall_hydrated_eq_selected : ¬ ∀ (relations : List Relation) (limits : Limits)
    (r : Request) (plan : Plan relations), (relations.map (·.property)).Nodup →
    Plan.make relations limits r = .ok plan → plan.hydrated = r.selected relations := by
  intro h
  have hall := h [anOrder.withJoin .inner, .belongsTo "tier" "tiers" "id" "rank"]
    ⟨3, 100, 10, true⟩ { Request.empty with relations := ["tier"] } _ (by decide) rfl
  have hids : [0, 1] = [1] := congrArg (List.map Fin.val) hall
  cases hids

end Shop

end FederatedJoin
