-- SUMMARY: What a plan with the roots first takes from the declared relations does not depend on their order.
import FederatedJoin.Proofs.Attachments
import FederatedJoin.Proofs.Checks

/-!
# Declarations

The relations of a schema are found by their properties, so the order in which
they are declared has little to say. Which roots are shown first of all: whether
they are read first is a matter of what the request says of each relation, and of
the root's provider they are selected by the untagged conditions and by the
foreign keys that inner joins ask for, in whatever order these are listed.
-/

namespace FederatedJoin

/-! ## Conditions on the root -/

namespace Routing

variable {relations : List Relation}

/-- The root's conditions are its own and the checks of owner relations. -/
theorem mem_rootFilters_foldl_ensureExistence {ids : List (RelationId relations)}
    {routing : Routing relations} {c : Condition}
    (h : c ∈ (ids.foldl ensureExistence routing).rootFilters) : c ∈ routing.rootFilters ∨
      ∃ id ∈ ids, (relations.get id).owner = true ∧ c = existenceCheck (relations.get id) := by
  induction ids generalizing routing with
  | nil => exact .inl h
  | cons id rest ih =>
    rcases ih h with hmem | ⟨other, hother, howner⟩
    · cases howner : (relations.get id).owner with
      | true =>
        rw [ensureExistence_of_owner howner] at hmem
        obtain ⟨checks, heq, hchecks⟩ :=
          exists_addCheck_eq (existenceCheck (relations.get id)) routing.rootFilters
        rw [heq] at hmem
        rcases List.mem_append.1 hmem with hmem | hmem
        · exact .inl hmem
        · exact .inr ⟨id, List.mem_cons_self, howner, hchecks c hmem⟩
      | false =>
        rw [rootFilters_ensureExistence_of_forward howner] at hmem
        exact .inl hmem
    · exact .inr ⟨other, List.mem_cons_of_mem id hother, howner⟩

/-- The root's conditions hold when the untagged ones do and no foreign key is missing that an
owner relation is asked for. -/
theorem all_rootFilters_iff (h : (relations.map (·.property)).Nodup) (r : Request)
    (row : Record) : (ofRequest relations r).rootFilters.all (·.holds row) = true ↔
      (∀ c ∈ r.filters, c.relation = none → c.holds row = true) ∧
        ∀ relation ∈ relations, relation.owner = true →
          relation.isInner = true ∨ r.SortsBy relation →
            (row.value relation.foreignKey).isNull = false := by
  rw [List.all_eq_true]
  constructor
  · intro hall
    refine ⟨fun c hc hroot => hall c ?_, fun relation hrelation howner hasked => ?_⟩
    · apply rootFilters_subset_foldl_ensureExistence
      exact List.mem_filter.2 ⟨hc, by rw [hroot]; rfl⟩
    · obtain ⟨id, rfl⟩ := List.get_of_mem hrelation
      obtain ⟨c, hc, hsame⟩ := exists_check_of_owner ((Requirement.isAsked_iff h id).2 hasked) howner
      have hholds := hall c hc
      rw [Condition.holds_of_sameCheck_notNull hsame] at hholds
      simpa using hholds
  · rintro ⟨hroot, howners⟩ c hc
    rcases mem_rootFilters_foldl_ensureExistence hc with hown | ⟨id, hid, howner, rfl⟩
    · obtain ⟨hmem, htag⟩ := List.mem_filter.1 hown
      exact hroot c hmem (Option.isNone_iff_eq_none.1 htag)
    · have hasked := (Requirement.isAsked_iff h id).1 (List.mem_filter.1 hid).2
      have hkey := howners _ (List.get_mem relations id) howner hasked
      rw [existenceCheck, Condition.holds_notNull, hkey]
      rfl

end Routing

/-! ## Requirements -/

namespace Requirement

theorem met_perm {as bs : List Relation} (h : as.Perm bs) {r : Request} (q : Requirement) :
    q.Met as r ↔ q.Met bs r := by
  cases q <;> simp only [Met, Declared, h.mem_iff]

/-- Only one requirement is about the relations that the request lists. -/
theorem met_relations {relations : List Relation} {r : Request} {q : Requirement}
    (h : q ≠ .listed) (names : List String) :
    q.Met relations { r with relations := names } ↔ q.Met relations r := by
  cases q with
  | listed => exact absurd rfl h
  | _ => rfl

end Requirement

/-! ## Roots first -/

namespace Plan

variable {relations : List Relation} {limits : Limits} {r : Request} {plan : Plan relations}

theorem exists_make_iff (h : (relations.map (·.property)).Nodup) (limits : Limits) (r : Request) :
    (∃ plan, make relations limits r = .ok plan) ↔ ∀ q : Requirement, q.Met relations r := by
  have hchecks := Requirement.make_eq_findSome? (r := r) h limits
  rw [(Requirement.ok_or_error_of_eq_ofFault hchecks).1, List.findSome?_eq_none_iff,
    Requirement.forall_mem_all]
  exact forall_congr' fun q => Requirement.fault?_eq_none_iff h q

/-- The roots are read first when the rows of no relation have to name them. -/
theorem strategy_eq_rootFirst_iff (h : (relations.map (·.property)).Nodup)
    (hplan : make relations limits r = .ok plan) :
    plan.strategy = .rootFirst ↔ ∀ relation ∈ relations, ¬ r.Joins relation := by
  have hmade := make_eq_ok_iff.1 hplan
  have hmet := (exists_make_iff h limits r).1 ⟨plan, hplan⟩
  have hdriving := Requirement.driving?_eq h (hmet .sorts) (hmet .owners) hmade.sorts_eq
  rw [← Requirement.driving?_eq_none_iff, hdriving, Option.map_eq_none_iff, hmade.routing_eq,
    ← hmade.strategy_eq]
  unfold Strategy.select
  cases plan.sorts.driving?.or plan.routing.constrained.head? with
  | none => exact iff_of_true rfl rfl
  | some driving => exact iff_of_false (fun h => nomatch h) (fun h => nomatch h)

theorem MadeFor.rootSorts_eq (hmade : plan.MadeFor limits r) :
    plan.sorts.rootSorts = r.sorts.filter (·.relation.isNone) :=
  (Requirement.parts_ofKeys hmade.sorts_eq).2

/-- With the roots first there are no conditions on a relation. -/
theorem MadeFor.about_of_rootFirst (hmade : plan.MadeFor limits r)
    (hfirst : plan.strategy = .rootFirst) (id : RelationId relations) :
    (r.about id).filters = [] ∧ (r.about id).orFilters = [] := by
  by_contra hnot
  rw [not_and_or] at hnot
  have hchain := hmade.mem_chain_of_conditions hnot
  rw [hfirst] at hchain
  cases hchain

end Plan

/-! ## Another order of declarations -/

namespace Federation

/-- The same root and the same relations with the same providers, declared in another order. -/
structure Redeclares {α : Type} (g f : Federation α) : Prop where
  schema_root : g.schema.root = f.schema.root
  root : g.root = f.root
  limits : g.limits = f.limits
  bindings : g.bindings.Perm f.bindings

theorem relation_get_bindings {α : Type} (f : Federation α) (id : RelationId f.schema.relations) :
    (f.bindings.get (id.cast f.length_bindings.symm)).relation = f.schema.relations.get id := by
  simp only [List.get_eq_getElem, ← f.aligned, List.getElem_map]
  rfl

namespace Redeclares

section Bindings

variable {α : Type} {f g : Federation α}

theorem relations_perm (h : g.Redeclares f) : g.schema.relations.Perm f.schema.relations := by
  rw [← g.aligned, ← f.aligned]
  exact h.bindings.map _

theorem validate (h : g.Redeclares f) (hvalid : f.schema.validate = .ok ()) :
    g.schema.validate = .ok () := by
  rw [Schema.validate_eq_ok_iff] at hvalid ⊢
  rw [h.schema_root, (h.relations_perm.map _).nodup_iff]
  exact hvalid

/-- A request for other relations is accepted as well, if they are declared. -/
theorem exists_plan (h : g.Redeclares f) (hvalid : f.schema.validate = .ok ()) {r : Request}
    (hplan : ∃ plan, f.plan r = .ok plan) {names : List String}
    (hnames : ∀ name ∈ names, Declared f.schema.relations name) :
    ∃ plan, g.plan { r with relations := names } = .ok plan := by
  have hmet := (Plan.exists_make_iff (Schema.validate_eq_ok_iff.1 hvalid).2 f.limits r).1 hplan
  apply (Plan.exists_make_iff (Schema.validate_eq_ok_iff.1 (h.validate hvalid)).2 g.limits _).2
  intro q
  rw [Requirement.met_perm h.relations_perm]
  by_cases hlisted : q = .listed
  · subst hlisted
    exact hnames
  · exact (Requirement.met_relations hlisted names).2 (hmet q)

/-- A relation keeps its provider. -/
theorem provider_eq (h : g.Redeclares f) (hvalid : f.schema.validate = .ok ())
    {id : RelationId f.schema.relations} {other : RelationId g.schema.relations}
    (hsame : g.schema.relations.get other = f.schema.relations.get id) :
    g.provider (.relation other) = f.provider (.relation id) := by
  let binding := f.bindings.get (id.cast f.length_bindings.symm)
  let rebound := g.bindings.get (other.cast g.length_bindings.symm)
  have hmem : rebound ∈ f.bindings := h.bindings.mem_iff.1 (List.get_mem ..)
  have hproperties : (f.bindings.map (·.relation.property)).Nodup := by
    have hnodup := (Schema.validate_eq_ok_iff.1 hvalid).2
    rw [← f.aligned, List.map_map] at hnodup
    exact hnodup
  have hproperty : rebound.relation.property = binding.relation.property := by
    rw [relation_get_bindings, relation_get_bindings, hsame]
  exact congrArg Binding.provider
    (List.inj_on_of_nodup_map hproperties hmem (List.get_mem ..) hproperty)

end Bindings

variable {f g : Federation Collection}

theorem fitsWords (h : g.Redeclares f) (hfit : f.FitsWords) : g.FitsWords := by
  intro source
  cases source with
  | root =>
    show g.root.FitsWord
    rw [h.root]
    exact hfit .root
  | relation other =>
    let rebound := g.bindings.get (other.cast g.length_bindings.symm)
    have hmem : rebound ∈ f.bindings := h.bindings.mem_iff.1 (List.get_mem ..)
    obtain ⟨id, hid⟩ := List.get_of_mem hmem
    have hprovider : f.provider (.relation (id.cast f.length_bindings)) = rebound.provider :=
      congrArg Binding.provider hid
    have hword := hfit (.relation (id.cast f.length_bindings))
    rw [hprovider] at hword
    exact hword

end Redeclares

end Federation

end FederatedJoin
