-- SUMMARY: What a plan asks of a relation's rows, compared with the request's own conditions on it.
import FederatedJoin.Proofs.Plans
import FederatedJoin.Proofs.Selection

/-!
# Conditions on a relation

A request sent to a relation holds the user's own conditions and, at the end of
the first list, what the federation adds: an existence check, the distinct
filter, a key constraint. An addition narrows the request, with one exception: a
second list that stands alone asks for any of its conditions, and next to a
first list, whatever that holds, it asks for all of them as an alternative. Such
a `Disjunctive` request loses its meaning when something is added.
-/

namespace FederatedJoin

theorem Condition.holds_notNull (field : String) (row : Record) :
    (notNull field).holds row = !(row.value field).isNull := by
  cases hnull : (row.value field).isNull <;> simp [notNull, holds, hnull, holdsOfNull, compares]

/-- A condition that asks for the same as a not-null check holds of the same rows. -/
theorem Condition.holds_of_sameCheck_notNull {c : Condition} {field : String}
    (h : c.sameCheck (notNull field) = true) (row : Record) :
    c.holds row = !(row.value field).isNull := by
  obtain ⟨cfield, operator, operand, relation⟩ := c
  simp only [sameCheck, notNull, Bool.and_eq_true, beq_iff_eq] at h
  obtain ⟨⟨rfl, rfl⟩, -⟩ := h
  exact holds_notNull cfield row

namespace Request

/-! ## Adding conditions -/

/-- Asks for more conditions in addition to the first list. -/
def adding (q : Request) (extra : List Condition) : Request :=
  { q with filters := q.filters ++ extra }

/-- Whether all conditions stand in the second list, where any of them will do. -/
def isDisjunctive (q : Request) : Bool := q.filters.isEmpty && !q.orFilters.isEmpty

theorem adding_adding (q : Request) (front back : List Condition) :
    (q.adding front).adding back = q.adding (front ++ back) := by
  simp only [adding, List.append_assoc]

theorem constrainKeys_eq_adding (q : Request) (field : String) (keys : List JoinKey) :
    q.constrainKeys field keys = q.adding [.oneOf field (keys.map .ofJoinKey)] := rfl

/-- Once something is added, all of the second list is an alternative to all of the first. -/
theorem holds_adding {q : Request} (hsearch : q.search = none) {extra : List Condition}
    (hextra : extra ≠ []) (row : Record) :
    (q.adding extra).searchTree.holds row =
      ((q.filters.all (·.holds row) && extra.all (·.holds row)) ||
        (!q.orFilters.isEmpty && q.orFilters.all (·.holds row))) := by
  cases hfilters : q.filters ++ extra with
  | nil => exact absurd (List.append_eq_nil_iff.1 hfilters).2 hextra
  | cons c rest =>
    rw [holds_searchTree_of_cons (q := q.adding extra) hfilters hsearch, ← hfilters,
      List.all_append]
    rfl

/-- Unless it is disjunctive, a request asks for all of one list or all of the other. -/
theorem holds_searchTree_of_not_disjunctive {q : Request} (hq : q.isDisjunctive = false)
    (hsearch : q.search = none) (row : Record) :
    q.searchTree.holds row = (q.filters.all (·.holds row) ||
      (!q.orFilters.isEmpty && q.orFilters.all (·.holds row))) := by
  cases hfilters : q.filters with
  | nil =>
    have hor : q.orFilters = [] := by simpa [isDisjunctive, hfilters] using hq
    simp [holds_searchTree_of_filters hor hsearch, hfilters]
  | cons c rest => exact holds_searchTree_of_cons hfilters hsearch row

/-- An addition only narrows a request that is not disjunctive. -/
theorem holds_of_holds_adding {q : Request} (hsearch : q.search = none) {extra : List Condition}
    (hextra : q.isDisjunctive = true → extra = []) {row : Record}
    (h : (q.adding extra).searchTree.holds row = true) : q.searchTree.holds row = true := by
  by_cases hnone : extra = []
  · simpa [adding, hnone] using h
  · have hq : q.isDisjunctive = false := Bool.eq_false_iff.2 (mt hextra hnone)
    rw [holds_adding hsearch hnone, Bool.or_eq_true, Bool.and_eq_true] at h
    rw [holds_searchTree_of_not_disjunctive hq hsearch, Bool.or_eq_true]
    exact h.imp_left And.left

/-- Where the added conditions hold, a disjunctive request asks for nothing, and any other
request for what it asked before. -/
theorem holds_adding_of_all {q : Request} (hsearch : q.search = none) {extra : List Condition}
    (hextra : extra ≠ []) {row : Record} (hall : extra.all (·.holds row) = true) :
    (q.adding extra).searchTree.holds row = (q.isDisjunctive || q.searchTree.holds row) := by
  rw [holds_adding hsearch hextra, hall, Bool.and_true]
  cases hq : q.isDisjunctive with
  | true =>
    have hnone : q.filters = [] := by
      simp only [isDisjunctive, Bool.and_eq_true, List.isEmpty_iff] at hq
      exact hq.1
    simp [hnone]
  | false => rw [holds_searchTree_of_not_disjunctive hq hsearch, Bool.false_or]

/-- The request's own conditions on a relation, as a request for rows of that relation. -/
def about {relations : List Relation} (r : Request) (id : RelationId relations) : Request :=
  { empty with
    filters := Routing.conditionsOf id r.filters
    orFilters := Routing.conditionsOf id r.orFilters }

end Request

namespace Routing

variable {relations : List Relation}

/-! ## Existence checks -/

/-- Whether an inner join or a sort key asks the relation for a record. -/
def isAsked (r : Request) (id : RelationId relations) : Bool :=
  (relations.get id).isInner || sortsBy r id

/-- The check that a relation's rows name a root at all. -/
def existenceCheck (relation : Relation) : Condition := .notNull relation.foreignKey

/-- The conditions of a forward relation once it is asked for a record. -/
def checkedSet (relation : Relation) (set : FilterSet) : FilterSet :=
  { set with
    filters := addCheck (existenceCheck relation) set.filters
    distinct := if set.distinct.isEmpty then relation.distinctFilter else set.distinct }

theorem exists_addCheck_eq (check : Condition) (conditions : List Condition) :
    ∃ checks, addCheck check conditions = conditions ++ checks ∧ ∀ c ∈ checks, c = check := by
  unfold addCheck
  split
  · exact ⟨[], (List.append_nil _).symm, fun c hc => nomatch hc⟩
  · exact ⟨[check], rfl, fun c hc => List.mem_singleton.1 hc⟩

theorem addCheck_ne_nil (check : Condition) (conditions : List Condition) :
    addCheck check conditions ≠ [] := by
  unfold addCheck
  split
  · next hany =>
    rintro rfl
    simp at hany
  · simp

theorem subset_addCheck (check : Condition) (conditions : List Condition) :
    conditions ⊆ addCheck check conditions := by
  unfold addCheck
  split
  · exact List.Subset.refl _
  · exact List.subset_append_left ..

theorem ensureExistence_of_owner {id : RelationId relations}
    (howner : (relations.get id).owner = true) (routing : Routing relations) :
    routing.ensureExistence id =
      { routing with
        rootFilters := addCheck (existenceCheck (relations.get id)) routing.rootFilters } := by
  simp only [ensureExistence, howner, if_true]
  rfl

theorem rootFilters_ensureExistence_of_forward {id : RelationId relations}
    (howner : (relations.get id).owner = false) (routing : Routing relations) :
    (routing.ensureExistence id).rootFilters = routing.rootFilters := by
  simp only [ensureExistence, howner, Bool.false_eq_true, if_false]

theorem sets_ensureExistence_of_forward {id : RelationId relations}
    (howner : (relations.get id).owner = false) (routing : Routing relations) :
    (routing.ensureExistence id).sets =
      routing.sets.set id.val (checkedSet (relations.get id) (routing.sets.get id)) id.isLt := by
  simp only [ensureExistence, howner, Bool.false_eq_true, if_false]
  rfl

theorem exists_sameCheck_addCheck (relation : Relation) (conditions : List Condition) :
    ∃ c ∈ addCheck (existenceCheck relation) conditions,
      c.sameCheck (existenceCheck relation) = true := by
  unfold addCheck
  split
  · next hany =>
    obtain ⟨c, hc, hsame⟩ := List.any_eq_true.1 hany
    exact ⟨c, hc, hsame⟩
  · refine ⟨existenceCheck relation, by simp, ?_⟩
    simp [existenceCheck, Condition.notNull, Condition.sameCheck]

/-- Asking one relation for a record concerns the conditions of that relation alone, and of
those only when the relation holds the foreign key. -/
theorem get_sets_ensureExistence (routing : Routing relations) (id other : RelationId relations) :
    (routing.ensureExistence id).sets.get other =
      if id = other ∧ (relations.get other).owner = false then
        checkedSet (relations.get other) (routing.sets.get other)
      else routing.sets.get other := by
  cases howner : (relations.get id).owner with
  | true =>
    rw [ensureExistence_of_owner howner, if_neg]
    rintro ⟨rfl, hforward⟩
    rw [howner] at hforward
    cases hforward
  | false =>
    rw [sets_ensureExistence_of_forward howner]
    by_cases hid : id = other
    · subst hid
      rw [if_pos ⟨rfl, howner⟩]
      exact Vector.getElem_set_self ..
    · rw [if_neg fun h => hid h.1]
      exact Vector.getElem_set_ne _ _ fun h => hid (Fin.ext h)

/-- Of distinct relations that are asked, each is asked once. -/
theorem get_sets_foldl_ensureExistence {ids : List (RelationId relations)} (hids : ids.Nodup)
    (routing : Routing relations) (id : RelationId relations) :
    (ids.foldl ensureExistence routing).sets.get id =
      if ids.contains id = true ∧ (relations.get id).owner = false then
        checkedSet (relations.get id) (routing.sets.get id)
      else routing.sets.get id := by
  induction ids generalizing routing with
  | nil => simp
  | cons first rest ih =>
    obtain ⟨hfirst, hrest⟩ := List.nodup_cons.1 hids
    rw [List.foldl_cons, ih hrest, get_sets_ensureExistence]
    by_cases hid : first = id
    · subst hid
      simp [hfirst]
    · simp [hid, Ne.symm hid]

/-- The conditions that are routed to a relation. -/
theorem get_sets_ofRequest (r : Request) (id : RelationId relations) :
    (ofRequest relations r).sets.get id =
      if isAsked r id = true ∧ (relations.get id).owner = false then
        ⟨addCheck (existenceCheck (relations.get id)) (r.about id).filters, (r.about id).orFilters,
          (relations.get id).distinctFilter⟩
      else ⟨(r.about id).filters, (r.about id).orFilters, []⟩ := by
  have hids := (List.nodup_finRange relations.length).filter (isAsked r)
  have hset : (distribute relations r).sets.get id =
      ⟨(r.about id).filters, (r.about id).orFilters, []⟩ := Vector.getElem_ofFn ..
  have hmem : ((List.finRange relations.length).filter (isAsked r)).contains id =
      isAsked r id := by
    rw [Bool.eq_iff_iff]
    simp
  rw [← hset]
  simp only [← hmem]
  refine (get_sets_foldl_ensureExistence hids (distribute relations r) id).trans ?_
  rw [hset]
  rfl

/-- The root keeps its conditions when relations are asked for records. -/
theorem rootFilters_subset_foldl_ensureExistence (ids : List (RelationId relations))
    (routing : Routing relations) :
    routing.rootFilters ⊆ (ids.foldl ensureExistence routing).rootFilters := by
  induction ids generalizing routing with
  | nil => exact List.Subset.refl _
  | cons id rest ih =>
    refine List.Subset.trans ?_ (ih _)
    cases howner : (relations.get id).owner with
    | true =>
      rw [ensureExistence_of_owner howner]
      exact subset_addCheck ..
    | false =>
      rw [rootFilters_ensureExistence_of_forward howner]
      exact List.Subset.refl _

/-- An owner relation that is asked for a record leaves its check with the root. -/
theorem exists_check_of_owner {r : Request} {id : RelationId relations}
    (hasked : isAsked r id = true) (howner : (relations.get id).owner = true) :
    ∃ c ∈ (ofRequest relations r).rootFilters,
      c.sameCheck (existenceCheck (relations.get id)) = true := by
  have hmem : id ∈ (List.finRange relations.length).filter (isAsked r) :=
    List.mem_filter.2 ⟨List.mem_finRange id, hasked⟩
  show ∃ c ∈ (((List.finRange relations.length).filter (isAsked r)).foldl ensureExistence
    (distribute relations r)).rootFilters, _
  generalize distribute relations r = routing
  generalize (List.finRange relations.length).filter (isAsked r) = ids at hmem ⊢
  induction ids generalizing routing with
  | nil => cases hmem
  | cons first rest ih =>
    rw [List.foldl_cons]
    rcases List.mem_cons.1 hmem with rfl | hrest
    · have hsubset := rootFilters_subset_foldl_ensureExistence rest (routing.ensureExistence id)
      rw [ensureExistence_of_owner howner] at hsubset ⊢
      obtain ⟨c, hc, hsame⟩ := exists_sameCheck_addCheck (relations.get id) routing.rootFilters
      exact ⟨c, hsubset hc, hsame⟩
    · exact ih _ hrest

/-! ## Requests for rows -/

/-- A request for the rows to attach adds nothing but existence checks of a forward relation. -/
theorem exists_hydrationRequest_eq (r : Request) (id : RelationId relations) :
    ∃ checks, (ofRequest relations r).hydrationRequest id = (r.about id).adding checks ∧
      ∀ c ∈ checks, (relations.get id).owner = false ∧ c = existenceCheck (relations.get id) := by
  simp only [hydrationRequest, applyRelation, get_sets_ofRequest, Bool.false_eq_true, if_false]
  split
  · next h =>
    obtain ⟨checks, hadd, hchecks⟩ :=
      exists_addCheck_eq (existenceCheck (relations.get id)) (r.about id).filters
    refine ⟨checks, ?_, fun c hc => ⟨h.2, hchecks c hc⟩⟩
    simp only [hadd, List.append_nil]
    rfl
  · refine ⟨[], ?_, fun c hc => nomatch hc⟩
    simp only [List.append_nil, Request.adding]
    rfl

/-- A request for the rows that discovery may use adds something only to a relation that is
asked for a record. -/
theorem exists_discoveryRequest_eq (r : Request) (id : RelationId relations) :
    ∃ extra, (ofRequest relations r).discoveryRequest id = (r.about id).adding extra ∧
      (isAsked r id = false → extra = []) := by
  simp only [discoveryRequest, applyRelation, get_sets_ofRequest, if_true]
  split
  · next h =>
    obtain ⟨checks, hadd, -⟩ :=
      exists_addCheck_eq (existenceCheck (relations.get id)) (r.about id).filters
    refine ⟨checks ++ (relations.get id).distinctFilter, ?_, fun hnot => ?_⟩
    · simp only [hadd, List.append_assoc]
      rfl
    · rw [h.1] at hnot
      cases hnot
  · refine ⟨[], ?_, fun _ => rfl⟩
    simp only [List.append_nil, Request.adding]
    rfl

/-- A row of the wanted keys is fetched when it satisfies the request's own conditions on the
relation, and in any case when these are disjunctive. -/
theorem holds_hydrationRequest {r : Request} {id : RelationId relations} {row : Record}
    {key : JoinKey} (hrow : row.joinKey? (relations.get id).relationKeyField = some key)
    {keys : List JoinKey} (hkey : key ∈ keys) :
    (((ofRequest relations r).hydrationRequest id).constrainKeys
        (relations.get id).relationKeyField keys).searchTree.holds row =
      ((r.about id).isDisjunctive || (r.about id).searchTree.holds row) := by
  obtain ⟨checks, hrequest, hchecks⟩ := exists_hydrationRequest_eq r id
  have hconstraint := (Condition.holds_oneOf_keys hrow keys).2 hkey
  rw [hrequest, Request.constrainKeys_eq_adding, Request.adding_adding]
  apply Request.holds_adding_of_all rfl
  · simp
  · rw [List.all_append, Bool.and_eq_true]
    refine ⟨List.all_eq_true.2 fun c hc => ?_, by simpa using hconstraint⟩
    obtain ⟨hforward, rfl⟩ := hchecks c hc
    -- the key of a forward relation's row is its foreign key, which then is not null
    have hfield : (relations.get id).relationKeyField = (relations.get id).foreignKey := by
      simp only [Relation.relationKeyField, hforward, Bool.false_eq_true, if_false]
    rw [hfield] at hrow
    rw [existenceCheck, Condition.holds_notNull, Condition.isNull_eq_false_of_joinKey hrow]
    rfl

theorem holds_about_of_discoveryRequest {r : Request} {id : RelationId relations} {row : Record}
    (h : ((ofRequest relations r).discoveryRequest id).searchTree.holds row = true)
    (hasked : (r.about id).isDisjunctive = true → isAsked r id = false) :
    (r.about id).searchTree.holds row = true := by
  obtain ⟨extra, hrequest, hextra⟩ := exists_discoveryRequest_eq r id
  rw [hrequest] at h
  exact Request.holds_of_holds_adding rfl (fun hq => hextra (hasked hq)) h

theorem holds_about_of_constrained {r : Request} {id : RelationId relations} {row : Record}
    {field : String} {keys : List JoinKey}
    (h : (((ofRequest relations r).discoveryRequest id).constrainKeys field keys).searchTree.holds
      row = true)
    (hjoint : (r.about id).isDisjunctive = false) :
    (r.about id).searchTree.holds row = true := by
  obtain ⟨extra, hrequest, -⟩ := exists_discoveryRequest_eq r id
  rw [hrequest, Request.constrainKeys_eq_adding, Request.adding_adding] at h
  refine Request.holds_of_holds_adding rfl (fun hq => ?_) h
  rw [hjoint] at hq
  cases hq

end Routing

end FederatedJoin
