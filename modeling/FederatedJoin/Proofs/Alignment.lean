-- SUMMARY: Declarations, conditions and providers of a federation line up at every place that a plan uses.
import FederatedJoin.Proofs.CallDiscipline
import FederatedJoin.Proofs.PlacedPlans
import FederatedJoin.Proofs.Slices

/-!
# Alignment

A federation and a plan hold three lists with an item for each relation: the
declarations, the providers bound to them, and the sets of routed conditions. They are
made apart from each other, and a relation is looked up in all of them by one number.
When the federation was made and the request was planned, each number of the plan leads
to one relation in every list: its declaration, its own conditions, and the provider
that the directory has under the name it declares. Whatever the providers answer,
nothing else is called than the root and these.
-/

namespace FederatedJoin

/-! ## Bound relations -/

/-- The bindings stand at the places of the declarations. -/
theorem Binding.getElem?_of_resolve {α : Type} {directory : Dictionary α}
    {relations : List Relation} {bindings : List (Binding α)}
    (h : resolve directory relations = .ok bindings) {place : Nat} {relation : Relation}
    (hplace : relations[place]? = some relation) : ∃ provider,
      directory.get? relation.provider = some provider ∧
        bindings[place]? = some ⟨relation, provider⟩ := by
  induction relations generalizing bindings place with
  | nil => cases hplace
  | cons first rest ih =>
    rw [resolve] at h
    split at h
    · cases h
    · next provider hfirst =>
      cases hrest : resolve directory rest with
      | error e => rw [hrest] at h; cases h
      | ok more =>
        rw [hrest] at h
        cases h
        cases place with
        | zero => cases hplace; exact ⟨provider, hfirst, rfl⟩
        | succ place => exact ih hrest hplace

theorem Federation.of_make {α : Type} {schema : Schema} {root : α} {directory : Dictionary α}
    {limits : Limits} {f : Federation α} (h : make schema root directory limits = .ok f) :
    f.schema = schema ∧ schema.validate = .ok () ∧
      Binding.resolve directory schema.relations = .ok f.bindings := by
  unfold make at h
  split at h
  · cases h
  · next hvalid =>
    split at h
    · cases h
    · next hbindings =>
      cases h
      exact ⟨rfl, hvalid, hbindings⟩

/-! ## Numbers of a plan -/

namespace PlacedPlan

/-- Every number by which the plan knows a relation. -/
def places (plan : PlacedPlan) : List Nat :=
  plan.strategy.driving?.toList ++ plan.strategy.chain ++ plan.hydrated
    ++ plan.sorts.relationSorts.map (·.1) ++ plan.routing.existence

theorem places_placed {relations : List Relation} (plan : Plan relations) :
    plan.placed.places = plan.ids.map Fin.val := by
  simp [places, Plan.ids, Plan.placed, Strategy.placed, SortSplit.placed, Routing.placed,
    Option.toList_map]

end PlacedPlan

/-! ## Calls -/

namespace Fetch

variable {relations : List Relation} {α : Type}

/-- After a first call for a single record, the calls are those of what is done with the record. -/
theorem mem_run_getOne_bind {source : Source relations} {q : Request}
    {x : Record → Fetch relations α} {b : Backend relations} {C : Call relations → Prop}
    (hcall : C ⟨source, .getOne, q⟩) (hx : ∀ record, Sends b C (x record)) :
    ∀ c ∈ ((getOne source q >>= x).run b).2, C c := by
  unfold run
  rw [bind_apply]
  unfold getOne
  cases b.getOne [] source q with
  | error e => exact List.forall_mem_singleton.2 hcall
  | ok record =>
    obtain ⟨⟨calls, htrace, hcalls⟩, -⟩ := hx record [⟨source, .getOne, q⟩]
    show ∀ c ∈ (x record b [⟨source, .getOne, q⟩]).2, C c
    rw [htrace]
    exact List.forall_mem_append.2 ⟨List.forall_mem_singleton.2 hcall, hcalls⟩

end Fetch

namespace Execution

variable {relations : List Relation} {plan : Plan relations} {c : Call relations}

/-- The call is about the root, or about a relation of the plan and under the conditions of that
relation. -/
def Concerns (plan : Plan relations) (c : Call relations) : Prop :=
  ∀ id, c.source = .relation id → id ∈ plan.ids ∧
    (plan.routing.sets.get id).filters <+: c.request.filters ∧
      c.request.orFilters = (plan.routing.sets.get id).orFilters

theorem concerns_of_root {method : Method} {q : Request} : Concerns plan ⟨.root, method, q⟩ :=
  fun _ h => nomatch h

theorem filters_applyRelation_extends (routing : Routing relations) (id : RelationId relations)
    (withDistinct : Bool) :
    (routing.sets.get id).filters <+: (routing.applyRelation id withDistinct .empty).filters :=
  List.prefix_append ..

theorem concerns_of_asks {withDistinct : Bool} {ids : List (RelationId relations)}
    (hids : ids ⊆ plan.ids)
    (h : c.Asks (fun id => plan.routing.applyRelation id withDistinct .empty) ids) :
    Concerns plan c := by
  cases h with
  | keys id keys hid hkeys =>
    rintro _ ⟨⟩
    refine ⟨hids hid, ?_, List.nil_append _⟩
    exact (filters_applyRelation_extends plan.routing id withDistinct).trans (List.prefix_append ..)

theorem hydrated_subset_ids (plan : Plan relations) : plan.hydrated ⊆ plan.ids := by
  intro id hid
  simp [Plan.ids, hid]

theorem chain_subset_ids (plan : Plan relations) : plan.strategy.chain ⊆ plan.ids := by
  intro id hid
  simp [Plan.ids, hid]

theorem concerns_of_sentFor (h : SentFor plan c) : Concerns plan c := by
  cases h with
  | roots => exact concerns_of_root
  | attach h => exact concerns_of_asks (hydrated_subset_ids plan) h
  | @discover driving narrowing _ hstrategy h =>
    have hchain : driving :: narrowing ⊆ plan.ids := by
      have hids := chain_subset_ids plan
      rw [hstrategy] at hids
      exact hids
    cases h with
    | window w =>
      rintro _ ⟨⟩
      exact ⟨hchain List.mem_cons_self, filters_applyRelation_extends plan.routing driving true,
        List.nil_append _⟩
    | narrow h => exact concerns_of_asks (List.subset_of_cons_subset hchain) h
    | hydrate h => exact concerns_of_asks (hydrated_subset_ids plan) h
    | fetch => exact concerns_of_root
    | page => exact concerns_of_root
    | total => exact concerns_of_root

end Execution

namespace Federation

variable {α : Type} {f : Federation α} {r : Request} {plan : Plan f.schema.relations}

theorem concerns_of_mem_getMany (hplan : f.plan r = .ok plan) {b : Backend f.schema.relations} :
    ∀ c ∈ ((f.getMany r).run b).2, Execution.Concerns plan c := by
  rw [getMany_of_plan hplan]
  intro c hc
  exact Execution.concerns_of_sentFor
    ((Execution.callDiscipline (Plan.make_eq_ok_iff.1 hplan) b).sent c hc)

theorem concerns_of_mem_getOne (hplan : f.plan r = .ok plan) {b : Backend f.schema.relations} :
    ∀ c ∈ ((f.getOne r).run b).2, Execution.Concerns plan c := by
  rw [getOne_of_plan hplan]
  refine Fetch.mem_run_getOne_bind Execution.concerns_of_root fun root => ?_
  refine Fetch.Sends.bind (Hydration.sends_hydrate plan (fun c hc => ?_) [root]) fun _ =>
    Fetch.sends_pure _
  exact Execution.concerns_of_asks (Execution.hydrated_subset_ids plan) hc

/-! ## One relation in every list -/

/-- What a place leads to: a declaration that is found by its property, its conditions, and its
provider, the one that the directory has under the declared name. -/
structure LeadsTo (f : Federation α) (directory : Dictionary α) (plan : Plan f.schema.relations)
    (place : Nat) (relation : Relation) (set : FilterSet) (provider : α) : Prop where
  declared : f.schema.relations[place]? = some relation
  found : (Relation.places f.schema.relations).get? relation.property = some place
  routed : plan.placed.routing.sets[place]? = some set
  bound : f.bindings[place]? = some ⟨relation, provider⟩
  registered : directory.get? relation.provider = some provider

theorem exists_leadsTo {directory : Dictionary α} (hvalid : f.schema.validate = .ok ())
    (hbound : Binding.resolve directory f.schema.relations = .ok f.bindings)
    (id : RelationId f.schema.relations) :
    f.LeadsTo directory plan id.val (f.schema.relations.get id) (plan.routing.sets.get id)
      (f.provider (.relation id)) := by
  have hdeclared : f.schema.relations[id.val]? = some (f.schema.relations.get id) :=
    List.getElem?_eq_getElem id.isLt
  have hplace : f.bindings[id.val]? = some (f.bindings.get (id.cast f.length_bindings.symm)) :=
    List.getElem?_eq_getElem (id.cast f.length_bindings.symm).isLt
  obtain ⟨provider, hregistered, hbinding⟩ := Binding.getElem?_of_resolve hbound hdeclared
  -- the binding found by number is the one that the relation is served by
  have hprovider : f.provider (.relation id) = provider := by
    have hsame := hplace.symm.trans hbinding
    exact congrArg Binding.provider (Option.some.inj hsame)
  refine ⟨hdeclared, ?_, ?_, ?_, ?_⟩
  · rw [Relation.get?_places, Relation.resolve?_property (Schema.validate_eq_ok_iff.1 hvalid).2]
    rfl
  · show (List.ofFn plan.routing.sets.get)[id.val]? = _
    rw [List.getElem?_ofFn, dif_pos id.isLt]
  · rw [hprovider]
    exact hbinding
  · rw [hprovider]
    exact hregistered

/-! ## Alignment of a federation and its plan -/

/-- The places that the plan uses lead to one relation in every list, and what is called is the
root or one of these relations, at the provider that is bound to it. -/
structure Aligned (f : Federation α) (directory : Dictionary α) (r : Request)
    (plan : Plan f.schema.relations) : Prop where
  resolves : ∀ name id, Relation.resolve? f.schema.relations name = some id ↔
    (f.schema.relations.get id).property = name
  declared : ∀ relation ∈ f.schema.relations, ∃ id,
    Relation.resolve? f.schema.relations relation.property = some id ∧
      f.schema.relations.get id = relation
  found : ∀ name, f.schema.relation? name =
    (Relation.resolve? f.schema.relations name).map f.schema.relations.get
  bound : ∀ place ∈ plan.placed.places, ∃ relation set provider,
    f.LeadsTo directory plan place relation set provider
  called : ∀ b, ∀ c ∈ ((f.getMany r).run b).2 ++ ((f.getOne r).run b).2, ∀ id,
    c.source = .relation id → id.val ∈ plan.placed.places ∧ ∃ relation set,
      f.LeadsTo directory plan id.val relation set (f.provider c.source) ∧
        set.filters <+: c.request.filters ∧ c.request.orFilters = set.orFilters

theorem aligned_of_resolve {directory : Dictionary α} (hvalid : f.schema.validate = .ok ())
    (hbound : Binding.resolve directory f.schema.relations = .ok f.bindings)
    (hplan : f.plan r = .ok plan) : f.Aligned directory r plan := by
  have hnodup := (Schema.validate_eq_ok_iff.1 hvalid).2
  have hplaces (id : RelationId f.schema.relations) (hid : id ∈ plan.ids) :
      id.val ∈ plan.placed.places := by
    rw [PlacedPlan.places_placed]
    exact List.mem_map_of_mem hid
  refine ⟨Relation.resolve?_eq_some_iff hnodup, fun relation hrelation => ?_,
    Schema.relation?_eq hnodup, fun place hplace => ?_, fun b c hc id hsource => ?_⟩
  · obtain ⟨id, rfl⟩ := List.mem_iff_get.1 hrelation
    exact ⟨id, Relation.resolve?_property hnodup id, rfl⟩
  · rw [PlacedPlan.places_placed] at hplace
    obtain ⟨id, -, rfl⟩ := List.mem_map.1 hplace
    exact ⟨_, _, _, exists_leadsTo hvalid hbound id⟩
  · have hconcerns : Execution.Concerns plan c := by
      rcases List.mem_append.1 hc with hc | hc
      · exact concerns_of_mem_getMany hplan c hc
      · exact concerns_of_mem_getOne hplan c hc
    obtain ⟨hid, hfilters, horFilters⟩ := hconcerns id hsource
    rw [hsource]
    exact ⟨hplaces id hid, _, _, exists_leadsTo hvalid hbound id, hfilters, horFilters⟩

end Federation

/-- Neither planning nor filling a page looks beyond the end of a list: not by the number of a
relation, and not where known keys or found roots are cut. -/
structure Plan.WithinBounds {relations : List Relation} (limits : Limits) (r : Request)
    (plan : Plan relations) : Prop where
  planned : PlacedPlan.make relations limits r = pure plan.placed
  pending : ∀ driving narrowing b t s,
    Fetch.Reaches (Execution.Scan.turn plan driving narrowing (Execution.target plan)
      (Execution.iterations plan limits)) b (.start plan limits) s t →
    Unguarded.slice s.gathering.discovery.keys s.gathering.fetched
        s.gathering.discovery.keys.length =
      pure (s.gathering.discovery.keys.drop s.gathering.fetched)
  ordered : ∀ g, Execution.orderedInPlace plan g = pure (Execution.ordered plan g)

theorem Plan.withinBounds {relations : List Relation} {limits : Limits} {r : Request}
    {plan : Plan relations} (h : make relations limits r = .ok plan) :
    plan.WithinBounds limits r := by
  refine ⟨(PlacedPlan.follows_make limits r).eq_pure h, fun driving narrowing b t s hs => ?_,
    Execution.orderedInPlace_eq plan⟩
  have hcounts := Execution.Scan.counts_of_reaches (Execution.Scan.counts_start plan limits) hs
  rw [Unguarded.slice_eq_pure hcounts.fetched_le (Nat.le_refl _),
    List.take_of_length_le (Nat.le_of_eq List.length_drop)]

namespace Federation

/-- Of a federation that was made and a request that was planned, relations, conditions and
providers are aligned, and no list is looked up or cut beyond its end. -/
theorem aligned_of_make {α : Type} {schema : Schema} {root : α} {directory : Dictionary α}
    {limits : Limits} {f : Federation α} {r : Request} {plan : Plan f.schema.relations}
    (hmake : make schema root directory limits = .ok f) (hplan : f.plan r = .ok plan) :
    f.schema = schema ∧ f.Aligned directory r plan ∧ plan.WithinBounds f.limits r := by
  obtain ⟨hschema, hvalid, hbound⟩ := of_make hmake
  rw [← hschema] at hvalid hbound
  exact ⟨hschema, aligned_of_resolve hvalid hbound hplan, Plan.withinBounds hplan⟩

end Federation

namespace Shop

/-- Two of the relations have one provider, and their places still differ. -/
theorem aligned_tierByPrice : ∃ (f : Federation String) (plan : Plan f.schema.relations),
    Federation.make ⟨⟨"customer", "id"⟩, threeRelations .inner⟩ "root"
        [("orders", "first"), ("tiers", "second")] ⟨3, 100, 10, true⟩ = .ok f ∧
      f.plan tierByPrice = .ok plan ∧
      (f.schema = ⟨⟨"customer", "id"⟩, threeRelations .inner⟩ ∧
        f.Aligned [("orders", "first"), ("tiers", "second")] tierByPrice plan ∧
        plan.WithinBounds f.limits tierByPrice) ∧
      plan.placed.places = [2, 2, 0, 0, 1, 2, 2, 0, 2] ∧
      f.bindings.map (·.provider) = ["first", "second", "first"] :=
  ⟨_, _, rfl, rfl, Federation.aligned_of_make rfl rfl, rfl, rfl⟩

end Shop

end FederatedJoin
