-- SUMMARY: The chain of a plan: which relations are in it, and the rows that each has for a discovered key.
import FederatedJoin.Proofs.RelationConditions
import FederatedJoin.Proofs.Windows

/-!
# Chains

A relation with conditions of its own, or one that is asked for a record, is in
the chain of the plan unless the root holds its foreign key, and all relations
of the chain name the roots by one field. A discovered key has passed the whole
chain: each of its relations has a row with that key on which the request sent
to it holds.
-/

namespace FederatedJoin

namespace Plan

variable {relations : List Relation} {limits : Limits} {r : Request} {plan : Plan relations}

theorem fault_eq_false_of_checkNone {ids : List (RelationId relations)} {fault : Relation → Bool}
    {failure : Relation → Failure} (h : checkNone ids fault failure = .ok ())
    {id : RelationId relations} (hid : id ∈ ids) : fault (relations.get id) = false := by
  unfold checkNone at h
  split at h
  · next hnone =>
    have hnot := List.find?_eq_none.1 hnone id hid
    exact Bool.eq_false_iff.2 hnot
  · cases h

/-! ## Relations of the chain -/

theorem mem_constrained_iff {routing : Routing relations} {id : RelationId relations} :
    id ∈ routing.constrained ↔ (routing.sets.get id).hasConstraints = true := by
  simp [Routing.constrained]

namespace MadeFor

/-- No relation that is constrained or sorted by is an owner relation. -/
theorem owner_eq_false (h : plan.MadeFor limits r) {id : RelationId relations}
    (hid : id ∈ plan.routing.constrained ∨ plan.sorts.driving? = some id) :
    (relations.get id).owner = false := by
  have hlisted : id ∈ plan.routing.constrained ++ plan.sorts.driving?.toList := by
    simpa [List.mem_append, Option.mem_toList] using hid
  have hfault := fault_eq_false_of_checkNone h.owners hlisted
  exact hfault

theorem mem_chain_of_mem_constrained (h : plan.MadeFor limits r) {id : RelationId relations}
    (hid : id ∈ plan.routing.constrained) : id ∈ plan.strategy.chain := by
  have hforward := h.owner_eq_false (.inl hid)
  rw [← h.strategy_eq]
  unfold Strategy.select
  cases hdriving : plan.sorts.driving?.or plan.routing.constrained.head? with
  | none =>
    rw [Option.or_eq_none_iff, List.head?_eq_none_iff] at hdriving
    rw [hdriving.2] at hid
    cases hid
  | some driving =>
    by_cases heq : id = driving
    · subst heq
      exact List.mem_cons_self
    · refine List.mem_cons_of_mem _ (List.mem_filter.2 ⟨hid, ?_⟩)
      rw [hforward]
      simpa using heq

theorem mem_constrained_of_mem_chain (h : plan.MadeFor limits r) {id : RelationId relations}
    (hid : id ∈ plan.strategy.chain) :
    id ∈ plan.routing.constrained ∨ plan.sorts.driving? = some id := by
  rw [← h.strategy_eq] at hid
  unfold Strategy.select at hid
  cases hdriving : plan.sorts.driving?.or plan.routing.constrained.head? with
  | none =>
    rw [hdriving] at hid
    cases hid
  | some driving =>
    rw [hdriving] at hid
    rcases List.mem_cons.1 hid with rfl | hid
    · rw [Option.or_eq_some_iff] at hdriving
      rcases hdriving with hsorted | ⟨-, hhead⟩
      · exact .inr hsorted
      · exact .inl (List.mem_of_head? hhead)
    · exact .inl (List.mem_filter.1 hid).1

theorem owner_eq_false_of_mem_chain (h : plan.MadeFor limits r) {id : RelationId relations}
    (hid : id ∈ plan.strategy.chain) : (relations.get id).owner = false :=
  h.owner_eq_false (h.mem_constrained_of_mem_chain hid)

theorem rootKeyField_of_mem_chain (h : plan.MadeFor limits r) {driving : RelationId relations}
    {narrowing : List (RelationId relations)}
    (hstrategy : plan.strategy = .relationFirst driving narrowing) {id : RelationId relations}
    (hid : id ∈ driving :: narrowing) :
    (relations.get id).rootKeyField = (relations.get driving).rootKeyField := by
  have hchain := h.chain
  simp only [checkChain, hstrategy, Strategy.driving?, Strategy.chain] at hchain
  have hfault := fault_eq_false_of_checkNone hchain hid
  simpa using hfault

theorem get_sets (h : plan.MadeFor limits r) (id : RelationId relations) :
    plan.routing.sets.get id = (Routing.ofRequest relations r).sets.get id := by
  rw [h.routing_eq]

/-- A relation that the request has conditions on is in the chain. -/
theorem mem_chain_of_conditions (h : plan.MadeFor limits r) {id : RelationId relations}
    (hid : (r.about id).filters ≠ [] ∨ (r.about id).orFilters ≠ []) :
    id ∈ plan.strategy.chain := by
  apply h.mem_chain_of_mem_constrained
  rw [mem_constrained_iff, h.get_sets, Routing.get_sets_ofRequest]
  split
  · simp [FilterSet.hasConstraints, Routing.addCheck_ne_nil]
  · simpa [FilterSet.hasConstraints] using hid

/-- A forward relation that is asked for a record is in the chain. -/
theorem mem_chain_of_isAsked (h : plan.MadeFor limits r) {id : RelationId relations}
    (hasked : Routing.isAsked r id = true) (hforward : (relations.get id).owner = false) :
    id ∈ plan.strategy.chain := by
  apply h.mem_chain_of_mem_constrained
  rw [mem_constrained_iff, h.get_sets, Routing.get_sets_ofRequest, if_pos ⟨hasked, hforward⟩]
  simp [FilterSet.hasConstraints, Routing.addCheck_ne_nil]

/-- A request that lists no relations gets all of them; otherwise it gets those that it lists and
the chain, in order of declaration. -/
theorem hydrated_eq_filter (h : plan.MadeFor limits r) :
    plan.hydrated = (List.finRange relations.length).filter fun id => r.relations.isEmpty ||
      (r.relations.filterMap (Relation.resolve? relations) ++ plan.strategy.chain).contains id := by
  have hhydrated := h.hydrated_eq
  unfold hydratedRelations at hhydrated
  cases hnames : r.relations with
  | nil =>
    rw [hnames] at hhydrated
    rw [← Except.ok.inj hhydrated]
    exact (List.filter_eq_self.2 fun _ _ => rfl).symm
  | cons name rest =>
    rw [hnames] at hhydrated
    dsimp only at hhydrated
    split at hhydrated
    · cases hhydrated
    · exact (Except.ok.inj hhydrated).symm

theorem hydrated_sublist (h : plan.MadeFor limits r) :
    plan.hydrated.Sublist (List.finRange relations.length) :=
  h.hydrated_eq_filter ▸ List.filter_sublist

/-- The relations of the chain are hydrated, whether the request lists them or not. -/
theorem mem_hydrated_of_mem_chain (h : plan.MadeFor limits r) {id : RelationId relations}
    (hid : id ∈ plan.strategy.chain) : id ∈ plan.hydrated := by
  rw [h.hydrated_eq_filter, List.mem_filter, Bool.or_eq_true, List.contains_iff_mem]
  exact ⟨List.mem_finRange id, .inr (List.mem_append_right _ hid)⟩

theorem nodup_hydrated (h : plan.MadeFor limits r) : plan.hydrated.Nodup :=
  (List.nodup_finRange _).sublist h.hydrated_sublist

/-- Relations are hydrated in order of declaration. -/
theorem pairwise_hydrated (h : plan.MadeFor limits r) : plan.hydrated.Pairwise (· < ·) :=
  (List.pairwise_lt_finRange _).sublist h.hydrated_sublist

end MadeFor

end Plan

/-! ## Rows of discovered keys -/

namespace Federation

variable {f : Federation Collection} {plan : Plan f.schema.relations}

/-- The rows of a relation that have the key. -/
def rowsOf (f : Federation Collection) (id : RelationId f.schema.relations) (key : JoinKey) :
    List Record :=
  (f.provider (.relation id)).rows.filter
    (·.joinKey? (f.schema.relations.get id).relationKeyField = some key)

theorem mem_rowsOf {id : RelationId f.schema.relations} {key : JoinKey} {row : Record} :
    row ∈ f.rowsOf id key ↔ row ∈ (f.provider (.relation id)).rows ∧
      row.joinKey? (f.schema.relations.get id).relationKeyField = some key := by
  simp [rowsOf]

/-- A driving row with the key is among the relation's rows, and the discovery request holds
on it. -/
theorem exists_row_of_mem_drivingKeys (hfit : f.FitsWords)
    {driving : RelationId f.schema.relations} {n : Nat} {key : JoinKey}
    (hkey : key ∈ Record.joinKeys ((drivingRows f plan driving).take n)
      (f.schema.relations.get driving).relationKeyField) :
    ∃ row ∈ f.rowsOf driving key,
      (plan.routing.discoveryRequest driving).searchTree.holds row = true := by
  obtain ⟨row, hrow, hrowkey⟩ := Record.mem_joinKeys.1 hkey
  have hselected := List.mem_of_mem_take hrow
  rw [drivingRows_eq_select hfit, Collection.mem_select] at hselected
  exact ⟨row, mem_rowsOf.2 ⟨hselected.1, hrowkey⟩, hselected.2⟩

theorem exists_row_of_hasRow (hfit : f.FitsWords) {id : RelationId f.schema.relations}
    {key : JoinKey} (h : hasRow f plan key id = true) :
    ∃ row ∈ f.rowsOf id key, ((plan.routing.discoveryRequest id).constrainKeys
      (f.schema.relations.get id).relationKeyField [key]).searchTree.holds row = true := by
  have hmem := of_decide_eq_true h
  rw [Collection.data_getMany_of_unlimited (hfit _) rfl rfl] at hmem
  obtain ⟨row, hrow, hrowkey⟩ := Record.mem_joinKeys.1 hmem
  have hselected := Collection.mem_select.1 hrow
  exact ⟨row, mem_rowsOf.2 ⟨hselected.1, hrowkey⟩, hselected.2⟩

variable {r : Request} {driving : RelationId f.schema.relations}
  {narrowing : List (RelationId f.schema.relations)}

/-- Every relation of the chain has a row with a discovered key. The row satisfies the request's
own conditions on the relation, if these are not disjunctive or nothing was added to them. -/
theorem exists_row_of_mem_keysOfFirst (hfit : f.FitsWords) {limits : Limits}
    (hmade : plan.MadeFor limits r) {n : Nat} {key : JoinKey}
    (hkey : key ∈ keysOfFirst f plan driving narrowing n) {id : RelationId f.schema.relations}
    (hid : id ∈ driving :: narrowing) :
    ∃ row ∈ f.rowsOf id key,
      ((r.about id).isDisjunctive = true → id = driving ∧ Routing.isAsked r id = false) →
        (r.about id).searchTree.holds row = true := by
  obtain ⟨hdrivingKey, hpassed⟩ := List.mem_filter.1 hkey
  -- every relation but the driving one was sent the key in addition to its conditions
  by_cases hdriving : id = driving
  · subst hdriving
    obtain ⟨row, hrow, hholds⟩ := exists_row_of_mem_drivingKeys hfit hdrivingKey
    rw [← hmade.routing_eq] at hholds
    refine ⟨row, hrow, fun hjoint => ?_⟩
    exact Routing.holds_about_of_discoveryRequest hholds fun hdisjunctive => (hjoint hdisjunctive).2
  · have hnarrowing := (List.mem_cons.1 hid).resolve_left hdriving
    obtain ⟨row, hrow, hholds⟩ :=
      exists_row_of_hasRow hfit (List.all_eq_true.1 hpassed id hnarrowing)
    rw [← hmade.routing_eq] at hholds
    refine ⟨row, hrow, fun hjoint => ?_⟩
    apply Routing.holds_about_of_constrained hholds
    exact Bool.eq_false_iff.2 fun hdisjunctive => hdriving (hjoint hdisjunctive).1

end Federation

end FederatedJoin
