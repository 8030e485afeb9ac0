-- SUMMARY: Planning checks the requirements on a request in turn and reports the first that is not met.
import FederatedJoin.Proofs.Answers
import FederatedJoin.Proofs.Chains
import FederatedJoin.Proofs.Requirements
import FederatedJoin.Proofs.Tags
import Mathlib.Data.List.FinRange
import Mathlib.Data.List.Find
import Mathlib.Tactic.FinCases
import Mathlib.Tactic.Tauto

/-!
# Checks

Most checks of a plan look at what was derived from the request: conditions that
are already routed, with the existence checks of inner joins added, and the chain
of the strategy. Each check is brought back to the requirement on the request that
it stands for. The checks after the sort keys presuppose that the keys have no
fault, and the one on join keys that no owner relation drives discovery; both have
been checked by then.
-/

namespace FederatedJoin

namespace Requirement

/-! ## Checks -/

def ofFault : Option Failure → Except Failure Unit
  | none => .ok ()
  | some e => .error e

/-- What planning checks for the requirement. -/
def check (relations : List Relation) (r : Request) (q : Requirement) : Except Failure Unit :=
  let routing := Routing.ofRequest relations r
  match q with
  | .noSearch => Plan.checkSearch r
  | .operands => Plan.checkOperands r.conditions
  | .tags => Plan.checkTags routing
  | .noRootOr => Plan.checkRootOr routing
  | .sorts => do
    let _ ← SortSplit.ofRequest relations r
  | .owners => do
    let sorts ← SortSplit.ofRequest relations r
    Plan.checkOwners routing sorts
  | .uniqueness => Plan.checkUniqueness routing
  | .joinKeys => do
    let sorts ← SortSplit.ofRequest relations r
    Plan.checkChain (Strategy.select routing sorts)
  | .listed => do
    let sorts ← SortSplit.ofRequest relations r
    let _ ← Plan.hydratedRelations (Strategy.select routing sorts) r

variable {relations : List Relation} {r : Request}

/-- Planning is the checks in turn; what comes between and after them has no faults. -/
theorem make_eq_forM_check (limits : Limits) :
    (do let _ ← Plan.make relations limits r) = all.forM (check relations r) := by
  have ok_bind {α β : Type} (a : α) (g : α → Except Failure β) : (Except.ok a >>= g) = g a := rfl
  have error_bind {α β : Type} (e : Failure) (g : α → Except Failure β) :
      (Except.error e >>= g) = .error e := rfl
  show _ = (do
    check relations r .noSearch; check relations r .operands; check relations r .tags
    check relations r .noRootOr; check relations r .sorts; check relations r .owners
    check relations r .uniqueness; check relations r .joinKeys; check relations r .listed
    pure ())
  cases hsorts : SortSplit.ofRequest relations r with
  | error e =>
    simp only [Plan.make, check, hsorts, error_bind, bind_assoc]
    rfl
  | ok sorts =>
    simp only [Plan.make, check, hsorts, ok_bind, bind_assoc]
    rfl

/-! ## Relations by place -/

theorem find?_relations (p : Relation → Bool) : relations.find? p =
    ((List.finRange relations.length).find? fun id => p (relations.get id)).map relations.get := by
  have hget := List.find?_map (p := p) (f := relations.get) (l := List.finRange relations.length)
  rwa [List.map_get_finRange] at hget

theorem checkNone_eq (ids : List (RelationId relations)) (fault : Relation → Bool)
    (failure : Relation → Failure) : Plan.checkNone ids fault failure =
      ofFault (((ids.find? fun id => fault (relations.get id)).map relations.get).map failure) := by
  unfold Plan.checkNone
  cases ids.find? fun id => fault (relations.get id) <;> rfl

/-! ## Requests without derived state -/

theorem checkOperands_eq (cs : List Condition) :
    Plan.checkOperands cs = ofFault (cs.findSome? operandFault?) := by
  induction cs with
  | nil => rfl
  | cons c rest ih =>
    unfold Plan.checkOperands
    rw [List.findSome?_cons, operandFault?]
    cases c.validate with
    | ok _ => exact ih
    | error e => rfl

theorem checkSearch_eq (r : Request) : Plan.checkSearch r =
    ofFault (r.search.map fun _ => .unsupportedSearch) := by
  unfold Plan.checkSearch
  cases r.search <;> rfl

/-! ## Tags -/

theorem not_declared_iff {name : String} :
    ¬ Declared relations name ↔ Relation.resolve? relations name = none := by
  rw [Relation.resolve?_eq_none_iff]
  simp [Declared]

/-- What an existence check leaves alone is as it was when the conditions were distributed. -/
theorem foldl_ensureExistence_congr {α : Type} (read : Routing relations → α)
    (h : ∀ routing id, read (routing.ensureExistence id) = read routing)
    (ids : List (RelationId relations)) (routing : Routing relations) :
    read (ids.foldl Routing.ensureExistence routing) = read routing := by
  induction ids generalizing routing with
  | nil => rfl
  | cons id rest ih => rw [List.foldl_cons, ih, h]

theorem unresolved_ofRequest (relations : List Relation) (r : Request) :
    (Routing.ofRequest relations r).unresolved =
      (r.conditions.filterMap (Routing.unknownTag? relations)).eraseDups := by
  refine foldl_ensureExistence_congr (·.unresolved) (fun routing id => ?_) _ _
  unfold Routing.ensureExistence
  dsimp only
  split <;> rfl

theorem rootOrFilters_ofRequest (relations : List Relation) (r : Request) :
    (Routing.ofRequest relations r).rootOrFilters = r.orFilters.filter (·.relation.isNone) := by
  refine foldl_ensureExistence_congr (·.rootOrFilters) (fun routing id => ?_) _ _
  unfold Routing.ensureExistence
  dsimp only
  split <;> rfl

theorem filterMap_unknownTag? (cs : List Condition) :
    cs.filterMap (Routing.unknownTag? relations) =
      (cs.filterMap (·.relation)).filter (¬ Declared relations ·) := by
  induction cs with
  | nil => rfl
  | cons c rest ih =>
    cases htag : c.relation with
    | none => simpa [Routing.unknownTag?, Scope.ofTag, htag] using ih
    | some name =>
      cases hresolved : Relation.resolve? relations name with
      | none =>
        have hnot : ¬ Declared relations name := not_declared_iff.2 hresolved
        simpa [Routing.unknownTag?, Scope.ofTag, htag, hresolved, hnot] using ih
      | some id =>
        have hdeclared : Declared relations name := by
          by_contra hnot
          rw [not_declared_iff.1 hnot] at hresolved
          cases hresolved
        simpa [Routing.unknownTag?, Scope.ofTag, htag, hresolved, hdeclared] using ih

theorem head?_eraseDups {α : Type} [BEq α] (xs : List α) : xs.eraseDups.head? = xs.head? := by
  cases xs with
  | nil => rfl
  | cons x rest => rw [List.eraseDups_cons]; rfl

theorem check_tags : check relations r .tags = ofFault (fault? relations r .tags) := by
  have hhead : (Routing.ofRequest relations r).unresolved.head? =
      (r.conditions.filterMap (·.relation)).find? (¬ Declared relations ·) := by
    rw [unresolved_ofRequest, head?_eraseDups, filterMap_unknownTag?, List.head?_filter]
  simp only [check, fault?, Plan.checkTags, ← hhead]
  cases (Routing.ofRequest relations r).unresolved <;> rfl

theorem check_noRootOr : check relations r .noRootOr = ofFault (fault? relations r .noRootOr) := by
  simp only [check, fault?, Plan.checkRootOr, rootOrFilters_ofRequest, ← List.head?_filter]
  cases r.orFilters.filter (·.relation.isNone) <;> rfl

/-! ## Sort keys -/

theorem sortFault?_of_unknown {first? : Option String} {key : SortKey} {name : String}
    (htag : key.relation = some name) (hnone : Relation.resolve? relations name = none) :
    sortFault? relations first? key = some (.unknownRelation name) := by
  have hfind := find?_property_eq_none_iff.2 (not_declared_iff.2 hnone)
  simp only [sortFault?, htag, hfind]

theorem sortFault?_of_resolved (h : (relations.map (·.property)).Nodup) {first? : Option String}
    {key : SortKey} {id : RelationId relations}
    (htag : key.relation = some (relations.get id).property) :
    sortFault? relations first? key =
      if (relations.get id).isMany && !(relations.get id).hasDistinctFilter then
        some (.missingDistinctFilter (relations.get id).property key.field)
      else if first?.any (· ≠ (relations.get id).property) then
        some (.multipleSortRelations (first?.getD (relations.get id).property)
          (relations.get id).property)
      else none := by
  have hfind : relations.find? (·.property = (relations.get id).property) =
      some (relations.get id) := by
    exact (find?_property_eq_some_iff h).2 ⟨List.get_mem relations id, rfl⟩
  simp only [sortFault?, htag, hfind]

theorem map_bind {α β : Type} (f : α → β) (x : Except Failure α) :
    (do let _ ← x.map f) = (do let _ ← x) := by
  cases x <;> rfl

/-- Scanning the sort keys stops at the first fault of a key. An earlier tagged key, if there is
one, names the relation of the first tag. -/
theorem ofKeys_eq (h : (relations.map (·.property)).Nodup) {first? : Option String}
    {earlier : Option (RelationId relations)} {keys : List SortKey}
    (hfirst : first? = (earlier.map fun id => (relations.get id).property).or
      (keys.filterMap (·.relation)).head?) :
    (do let _ ← SortSplit.ofKeys relations earlier keys) =
      ofFault (keys.findSome? (sortFault? relations first?)) := by
  induction keys generalizing earlier with
  | nil => rfl
  | cons key rest ih =>
    rw [List.findSome?_cons, SortSplit.ofKeys]
    cases htag : key.relation with
    | none =>
      have hfault : sortFault? relations first? key = none := by simp only [sortFault?, htag]
      simp only [List.filterMap_cons, htag] at hfirst
      simp only [Scope.ofTag, map_bind, hfault]
      exact ih hfirst
    | some name =>
      cases hresolved : Relation.resolve? relations name with
      | none =>
        simp only [Scope.ofTag, hresolved, sortFault?_of_unknown htag hresolved]
        rfl
      | some id =>
        obtain rfl := Relation.property_of_resolve? hresolved
        simp only [List.filterMap_cons, htag, List.head?_cons] at hfirst
        have hearlier : earlier.any (· ≠ id) = first?.any (· ≠ (relations.get id).property) := by
          subst hfirst
          cases earlier with
          | none => simp
          | some other =>
            have hinj := (Relation.property_injective_of_nodup h).eq_iff (a := other) (b := id)
            simpa using hinj.symm
        simp only [Scope.ofTag, hresolved, sortFault?_of_resolved h htag, hearlier]
        split
        · rfl
        · split
          · next hdiffers =>
            subst hfirst
            cases earlier with
            | none => simp at hdiffers
            | some other => rfl
          · next hsame =>
            rw [map_bind]
            refine ih ?_
            subst hfirst
            cases earlier with
            | none => rfl
            | some other => simpa using hsame

theorem exists_of_map_eq_ok {α β : Type} {x : Except Failure α} {f : α → β} {b : β}
    (h : x.map f = .ok b) : ∃ a, x = .ok a ∧ f a = b := by
  cases x with
  | error e => cases h
  | ok a => exact ⟨a, rfl, Except.ok.inj h⟩

/-- The relations sorted by are those of the tags, and the root is sorted by the keys without. -/
theorem parts_ofKeys {earlier : Option (RelationId relations)} {keys : List SortKey}
    {sorts : SortSplit relations} (hsorts : SortSplit.ofKeys relations earlier keys = .ok sorts) :
    sorts.relationSorts.map (fun p => ((relations.get p.1).property, p.2)) =
        keys.filterMap (fun key => key.relation.map fun name => (name, key.untagged)) ∧
      sorts.rootSorts = keys.filter (·.relation.isNone) := by
  induction keys generalizing earlier sorts with
  | nil =>
    cases hsorts
    exact ⟨rfl, rfl⟩
  | cons key rest ih =>
    rw [SortSplit.ofKeys] at hsorts
    cases htag : key.relation with
    | none =>
      simp only [Scope.ofTag, htag] at hsorts
      obtain ⟨s, hs, rfl⟩ := exists_of_map_eq_ok hsorts
      simpa [htag] using ih hs
    | some name =>
      cases hresolved : Relation.resolve? relations name with
      | none =>
        simp only [Scope.ofTag, htag, hresolved] at hsorts
        cases hsorts
      | some id =>
        obtain rfl := Relation.property_of_resolve? hresolved
        simp only [Scope.ofTag, htag, hresolved] at hsorts
        split at hsorts
        · cases hsorts
        · split at hsorts
          · cases hsorts
          · obtain ⟨s, hs, rfl⟩ := exists_of_map_eq_ok hsorts
            simpa [htag] using ih hs

theorem tags_ofKeys {earlier : Option (RelationId relations)} {keys : List SortKey}
    {sorts : SortSplit relations} (hsorts : SortSplit.ofKeys relations earlier keys = .ok sorts) :
    sorts.relationSorts.map (fun p => (relations.get p.1).property) =
      keys.filterMap (·.relation) := by
  have htags := congrArg (List.map Prod.fst) (parts_ofKeys hsorts).1
  simpa [List.map_filterMap, Function.comp_def] using htags

theorem check_sorts (h : (relations.map (·.property)).Nodup) :
    check relations r .sorts = ofFault (fault? relations r .sorts) :=
  ofKeys_eq h rfl

/-! ## Derived relations -/

theorem sortsBy_iff (h : (relations.map (·.property)).Nodup) (id : RelationId relations) :
    Routing.sortsBy r id = true ↔ r.SortsBy (relations.get id) := by
  simp only [Routing.sortsBy, List.any_eq_true, decide_eq_true_eq, Scope.ofTag_eq_relation_iff h]
  exact Iff.rfl

theorem isAsked_iff (h : (relations.map (·.property)).Nodup) (id : RelationId relations) :
    Routing.isAsked r id = true ↔
      (relations.get id).isInner = true ∨ r.SortsBy (relations.get id) := by
  simp only [Routing.isAsked, Bool.or_eq_true, sortsBy_iff h]

theorem conditionsOf_ne_nil_iff (h : (relations.map (·.property)).Nodup)
    (id : RelationId relations) (cs : List Condition) :
    Routing.conditionsOf id cs ≠ [] ↔ ∃ c ∈ cs, c.relation = some (relations.get id).property := by
  simp only [Routing.conditionsOf, ne_eq, List.map_eq_nil_iff, List.filter_eq_nil_iff,
    decide_eq_true_eq, Scope.ofTag_eq_relation_iff h, not_forall, not_not, exists_prop]

/-- The relations with conditions of their own: those of a tagged condition, and those that hold
the foreign key and are asked for a record. -/
theorem mem_constrained_ofRequest_iff (h : (relations.map (·.property)).Nodup)
    (id : RelationId relations) : id ∈ (Routing.ofRequest relations r).constrained ↔
      r.Constrains (relations.get id) ∨ r.Joins (relations.get id) := by
  have habout : (r.about id).filters ≠ [] ∨ (r.about id).orFilters ≠ [] ↔
      r.Constrains (relations.get id) := by
    rw [Request.about, conditionsOf_ne_nil_iff h, conditionsOf_ne_nil_iff h]
    simp only [Request.Constrains, Request.conditions, List.mem_append, or_and_right, exists_or]
  rw [Plan.mem_constrained_iff, Routing.get_sets_ofRequest]
  by_cases hasked : Routing.isAsked r id = true ∧ (relations.get id).owner = false
  · rw [if_pos hasked]
    refine iff_of_true ?_ (.inr ⟨hasked.2, ?_⟩)
    · simp [FilterSet.hasConstraints, Routing.addCheck_ne_nil]
    · exact ((isAsked_iff h id).1 hasked.1).imp_right .inr
  · rw [if_neg hasked]
    have hset : FilterSet.hasConstraints ⟨(r.about id).filters, (r.about id).orFilters, []⟩ = true ↔
        r.Constrains (relations.get id) := by
      rw [← habout]
      simp [FilterSet.hasConstraints]
    rw [hset]
    refine ⟨.inl, ?_⟩
    rintro (hconstrains | ⟨hforward, hinner | hconstrains | hsorted⟩)
    · exact hconstrains
    · exact absurd ⟨(isAsked_iff h id).2 (.inl hinner), hforward⟩ hasked
    · exact hconstrains
    · exact absurd ⟨(isAsked_iff h id).2 (.inr hsorted), hforward⟩ hasked

/-- Each forward relation that is asked for a record gets one existence check. -/
theorem existence_foldl_ensureExistence {ids : List (RelationId relations)} (hids : ids.Nodup)
    (routing : Routing relations) (hnew : ∀ id ∈ ids, id ∉ routing.existence) :
    (ids.foldl Routing.ensureExistence routing).existence =
      routing.existence ++ ids.filter fun id => !(relations.get id).owner := by
  induction ids generalizing routing with
  | nil => exact (List.append_nil _).symm
  | cons id rest ih =>
    obtain ⟨hid, hrest⟩ := List.nodup_cons.1 hids
    have hstep : (routing.ensureExistence id).existence =
        routing.existence ++ if (relations.get id).owner then [] else [id] := by
      unfold Routing.ensureExistence
      dsimp only
      split
      · exact (List.append_nil _).symm
      · exact if_neg (hnew id List.mem_cons_self)
    rw [List.foldl_cons, ih hrest _ ?_, hstep, List.filter_cons]
    · cases (relations.get id).owner <;> simp
    · intro other hother
      rw [hstep]
      have hold := hnew other (List.mem_cons_of_mem _ hother)
      have hne : other ≠ id := fun heq => hid (heq ▸ hother)
      cases (relations.get id).owner <;> simp [hold, hne]

theorem existence_ofRequest (r : Request) : (Routing.ofRequest relations r).existence =
    ((List.finRange relations.length).filter (Routing.isAsked r)).filter
      fun id => !(relations.get id).owner :=
  existence_foldl_ensureExistence ((List.nodup_finRange _).filter _) _ fun _ _ h => nomatch h

theorem check_uniqueness (h : (relations.map (·.property)).Nodup) :
    check relations r .uniqueness = ofFault (fault? relations r .uniqueness) := by
  simp only [check, fault?, Plan.checkUniqueness, checkNone_eq, existence_ofRequest,
    List.find?_filter, find?_relations]
  congr 3
  apply List.find?_congr
  intro id _
  have hasked := isAsked_iff (r := r) h id
  rw [Bool.eq_iff_iff]
  simp only [decide_eq_true_eq, Bool.and_eq_true, Bool.not_eq_true', hasked, Bool.not_eq_true]
  tauto

/-! ## The relation sorted by -/

/-- Where the sort keys have no fault, the relation sorted by is the one that tags name. -/
theorem sortsBy_iff_driving? (h : (relations.map (·.property)).Nodup)
    (hmet : Met relations r .sorts) {sorts : SortSplit relations}
    (hsorts : SortSplit.ofRequest relations r = .ok sorts) (id : RelationId relations) :
    r.SortsBy (relations.get id) ↔ sorts.driving? = some id := by
  have htags := tags_ofKeys hsorts
  have hhead : sorts.driving?.map (fun id => (relations.get id).property) =
      (r.sorts.filterMap (·.relation)).head? := by
    rw [← htags, SortSplit.driving?]
    simp [Function.comp_def]
  constructor
  · rintro ⟨key, hkey, htag⟩
    have hmem : (relations.get id).property ∈ r.sorts.filterMap (·.relation) :=
      List.mem_filterMap.2 ⟨key, hkey, htag⟩
    cases hfirst : (r.sorts.filterMap (·.relation)).head? with
    | none =>
      rw [List.head?_eq_none_iff.1 hfirst] at hmem
      cases hmem
    | some name =>
      obtain ⟨first, hmemfirst, hnamed⟩ := List.mem_filterMap.1 (List.mem_of_head? hfirst)
      have hsame := hmet.2.2 first hmemfirst key hkey _ _ hnamed htag
      rw [hfirst] at hhead
      obtain ⟨other, hother, hproperty⟩ := Option.map_eq_some_iff.1 hhead
      rw [hother, Relation.property_injective_of_nodup h (hproperty.trans hsame)]
  · intro hdriving
    rw [hdriving] at hhead
    obtain ⟨key, hkey, htag⟩ := List.mem_filterMap.1 (List.mem_of_head? hhead.symm)
    exact ⟨key, hkey, htag⟩

theorem filter_sortsBy (h : (relations.map (·.property)).Nodup)
    (hmet : Met relations r .sorts) {sorts : SortSplit relations}
    (hsorts : SortSplit.ofRequest relations r = .ok sorts) :
    relations.filter (r.SortsBy ·) = sorts.driving?.toList.map relations.get := by
  have hids : (List.finRange relations.length).filter (fun id => r.SortsBy (relations.get id)) =
      sorts.driving?.toList := by
    simp only [sortsBy_iff_driving? h hmet hsorts]
    cases sorts.driving? with
    | none => simp
    | some driving =>
      have hself : (fun id => decide (some driving = some id)) = (· == driving) := by
        funext id
        rw [Bool.eq_iff_iff, decide_eq_true_eq, Option.some.injEq, beq_iff_eq, eq_comm]
      rw [hself, List.filter_beq, (List.nodup_finRange _).count, if_pos (List.mem_finRange _)]
      rfl
  have hget := List.filter_map (p := (r.SortsBy ·)) (f := relations.get)
    (l := List.finRange relations.length)
  rw [List.map_get_finRange] at hget
  rw [hget, ← hids]
  rfl

theorem check_owners (h : (relations.map (·.property)).Nodup) (hmet : Met relations r .sorts)
    {sorts : SortSplit relations} (hsorts : SortSplit.ofRequest relations r = .ok sorts) :
    check relations r .owners = ofFault (fault? relations r .owners) := by
  have hcheck : check relations r .owners =
      Plan.checkOwners (Routing.ofRequest relations r) sorts := by
    simp only [check, hsorts]
    rfl
  have hconstrained : (((Routing.ofRequest relations r).constrained.find? fun id =>
      (relations.get id).owner).map relations.get) =
        (relations.filter (r.Constrains ·)).find? (·.owner) := by
    rw [List.find?_filter, find?_relations, Routing.constrained, List.find?_filter]
    congr 1
    apply List.find?_congr
    intro id _
    have hiff := mem_constrained_ofRequest_iff (r := r) h id
    rw [Plan.mem_constrained_iff] at hiff
    simp only [hiff, Request.Joins, decide_eq_decide, decide_eq_true_eq]
    constructor
    · rintro ⟨hconstrains | ⟨hforward, -⟩, howner⟩
      · exact ⟨hconstrains, howner⟩
      · rw [hforward] at howner
        cases howner
    · rintro ⟨hconstrains, howner⟩
      exact ⟨.inl hconstrains, howner⟩
  rw [hcheck, Plan.checkOwners, checkNone_eq, fault?, List.find?_append, List.find?_append,
    Option.map_or, hconstrained, filter_sortsBy h hmet hsorts, List.find?_map]
  rfl

theorem rootKeyField_of_forward {relation : Relation} (h : relation.owner = false) :
    relation.rootKeyField = relation.primaryKey := by
  simp only [Relation.rootKeyField, h, Bool.false_eq_true, if_false]

/-! ## The driving relation and its chain -/

theorem joins_of_sortsBy (howners : Met relations r .owners) {relation : Relation}
    (hrelation : relation ∈ relations) (h : r.SortsBy relation) : r.Joins relation := by
  refine ⟨Bool.eq_false_iff.2 fun howner => ?_, .inr (.inr h)⟩
  exact (howners relation hrelation howner).2 h

/-- Once no owner relation is constrained, the relations with conditions are those whose rows
have to name the roots. -/
theorem mem_constrained_iff_joins (h : (relations.map (·.property)).Nodup)
    (howners : Met relations r .owners) (id : RelationId relations) :
    id ∈ (Routing.ofRequest relations r).constrained ↔ r.Joins (relations.get id) := by
  rw [mem_constrained_ofRequest_iff h]
  refine ⟨fun hid => hid.elim (fun hconstrains => ?_) fun hjoins => hjoins, .inr⟩
  refine ⟨Bool.eq_false_iff.2 fun howner => ?_, .inr (.inl hconstrains)⟩
  exact (howners _ (List.get_mem relations id) howner).1 hconstrains

/-- The relation that drives discovery is one whose rows name the roots. -/
theorem driving?_eq (h : (relations.map (·.property)).Nodup) (hmet : Met relations r .sorts)
    (howners : Met relations r .owners) {sorts : SortSplit relations}
    (hsorts : SortSplit.ofRequest relations r = .ok sorts) :
    driving? relations r = (sorts.driving?.or
      (Routing.ofRequest relations r).constrained.head?).map relations.get := by
  have hsorted : (relations.filter (r.Joins ·)).find? (r.SortsBy ·) =
      sorts.driving?.map relations.get := by
    have hjoins : (relations.filter (r.Joins ·)).filter (r.SortsBy ·) =
        relations.filter (r.SortsBy ·) := by
      rw [List.filter_filter]
      apply List.filter_congr
      intro relation hrelation
      simpa using joins_of_sortsBy howners hrelation
    rw [← List.head?_filter, hjoins, filter_sortsBy h hmet hsorts]
    cases sorts.driving? <;> rfl
  have hfirst : relations.find? (r.Joins ·) =
      (Routing.ofRequest relations r).constrained.head?.map relations.get := by
    rw [find?_relations, Routing.constrained, List.head?_filter]
    congr 1
    apply List.find?_congr
    intro id _
    rw [Bool.eq_iff_iff, decide_eq_true_eq, ← Plan.mem_constrained_iff]
    exact (mem_constrained_iff_joins h howners id).symm
  rw [driving?, hsorted, hfirst, Option.map_or]

/-- Along the chain the first other key field is that of the first relation that joins by it. -/
theorem find?_mismatched (h : (relations.map (·.property)).Nodup)
    (howners : Met relations r .owners) {driving : RelationId relations}
    (hdrives : r.Joins (relations.get driving)) :
    ((driving :: (Routing.ofRequest relations r).constrained.filter fun id =>
      id ≠ driving && !(relations.get id).owner).find? fun id =>
        (relations.get id).rootKeyField ≠ (relations.get driving).primaryKey) =
    (List.finRange relations.length).find? fun id => r.Joins (relations.get id) ∧
      (relations.get id).primaryKey ≠ (relations.get driving).primaryKey := by
  have hself := rootKeyField_of_forward hdrives.1
  rw [List.find?_cons_of_neg (by rw [hself]; simp), List.find?_filter, Routing.constrained,
    List.find?_filter]
  apply List.find?_congr
  intro id _
  rw [Bool.eq_iff_iff]
  simp only [Bool.and_eq_true, Bool.not_eq_true', decide_eq_true_eq, ← Plan.mem_constrained_iff,
    mem_constrained_iff_joins h howners]
  constructor
  · rintro ⟨hjoins, -, hne⟩
    rw [rootKeyField_of_forward hjoins.1] at hne
    exact ⟨hjoins, hne⟩
  · rintro ⟨hjoins, hne⟩
    refine ⟨hjoins, ⟨fun heq => hne (heq ▸ rfl), hjoins.1⟩, ?_⟩
    rw [rootKeyField_of_forward hjoins.1]
    exact hne

theorem check_joinKeys (h : (relations.map (·.property)).Nodup) (hmet : Met relations r .sorts)
    (howners : Met relations r .owners) {sorts : SortSplit relations}
    (hsorts : SortSplit.ofRequest relations r = .ok sorts) :
    check relations r .joinKeys = ofFault (fault? relations r .joinKeys) := by
  have hcheck : check relations r .joinKeys =
      Plan.checkChain (Strategy.select (Routing.ofRequest relations r) sorts) := by
    simp only [check, hsorts]
    rfl
  have hdriving := driving?_eq h hmet howners hsorts
  rw [hcheck, fault?, hdriving, Plan.checkChain, Strategy.select]
  cases hfirst : sorts.driving?.or (Routing.ofRequest relations r).constrained.head? with
  | none => rfl
  | some driving =>
    have hdrives : r.Joins (relations.get driving) := by
      rcases Option.or_eq_some_iff.1 hfirst with hsorted | ⟨-, hhead⟩
      · apply joins_of_sortsBy howners (List.get_mem relations driving)
        exact (sortsBy_iff_driving? h hmet hsorts driving).2 hsorted
      · exact (mem_constrained_iff_joins h howners driving).1 (List.mem_of_head? hhead)
    have hfind := find?_mismatched h howners hdrives
    simp only [Strategy.driving?, Strategy.chain, checkNone_eq, Option.map_some, Option.bind_some,
      find?_relations, hfind, rootKeyField_of_forward hdrives.1]
    cases hfound : (List.finRange relations.length).find? fun id => r.Joins (relations.get id) ∧
        (relations.get id).primaryKey ≠ (relations.get driving).primaryKey with
    | none => rfl
    | some id =>
      have hjoins : r.Joins (relations.get id) := by
        have hboth := List.find?_some hfound
        exact (of_decide_eq_true hboth).1
      simp only [Option.map_some, rootKeyField_of_forward hjoins.1]

theorem check_listed {sorts : SortSplit relations}
    (hsorts : SortSplit.ofRequest relations r = .ok sorts) :
    check relations r .listed = ofFault (fault? relations r .listed) := by
  have hcheck : check relations r .listed = (do
      let _ ← Plan.hydratedRelations (Strategy.select (.ofRequest relations r) sorts) r) := by
    simp only [check, hsorts]
    rfl
  have hunknown : (fun name => (Relation.resolve? relations name).isNone) =
      fun name => decide (¬ Declared relations name) := by
    funext name
    rw [Bool.eq_iff_iff, decide_eq_true_eq, not_declared_iff, Option.isNone_iff_eq_none]
  rw [hcheck, fault?, Plan.hydratedRelations]
  cases r.relations with
  | nil => rfl
  | cons name rest =>
    dsimp only
    rw [hunknown]
    cases (name :: rest).find? fun name => decide (¬ Declared relations name) <;> rfl

/-! ## Of several faults the first is reported -/

theorem forM_ofFault {α : Type} (fault? : α → Option Failure) (xs : List α) :
    (xs.forM fun x => ofFault (fault? x)) = ofFault (xs.findSome? fault?) := by
  induction xs with
  | nil => rfl
  | cons x rest ih =>
    rw [List.findSome?_cons]
    show (ofFault (fault? x) >>= fun _ => rest.forM fun x => ofFault (fault? x)) = _
    cases fault? x with
    | none => exact ih
    | some e => rfl

/-- Two checks do the same along a list if they agree wherever the second has passed before. -/
theorem forM_congr {α : Type} {f g : α → Except Failure Unit} {xs : List α}
    (h : ∀ front x back, xs = front ++ x :: back → (∀ y ∈ front, g y = .ok ()) → f x = g x) :
    xs.forM f = xs.forM g := by
  induction xs with
  | nil => rfl
  | cons first rest ih =>
    show (f first >>= fun _ => rest.forM f) = (g first >>= fun _ => rest.forM g)
    rw [h [] first rest rfl fun y hy => nomatch hy]
    cases hfirst : g first with
    | error e => rfl
    | ok _ =>
      refine ih fun front x back hsplit hfront => h (first :: front) x back ?_ ?_
      · rw [hsplit]
        rfl
      · exact List.forall_mem_cons.2 ⟨hfirst, hfront⟩

/-- The requirements in front of one are those that are reported before it. -/
theorem eq_takeWhile_of_all {q : Requirement} {front back : List Requirement}
    (h : all = front ++ q :: back) : front = all.takeWhile (· ≠ q) := by
  have hnodup : (front ++ q :: back).Nodup := h ▸ by decide
  have hne : ∀ p ∈ front, decide (p ≠ q) = true := fun p hp =>
    decide_eq_true ((List.nodup_append.1 hnodup).2.2 p hp q List.mem_cons_self)
  rw [h, List.takeWhile_append_of_pos hne]
  simp

theorem check_of_met_before (h : (relations.map (·.property)).Nodup) {q : Requirement}
    (hbefore : ∀ p ∈ all.takeWhile (· ≠ q), p.Met relations r) :
    check relations r q = ofFault (fault? relations r q) := by
  have hsplit (hsorts : Met relations r .sorts) :
      ∃ sorts, SortSplit.ofRequest relations r = .ok sorts := by
    have hcheck := check_sorts (r := r) h
    rw [(sorts_fault?_eq_none_iff h).2 hsorts] at hcheck
    obtain ⟨sorts, hok, -⟩ := Plan.bind_eq_ok_iff.1 hcheck
    exact ⟨sorts, hok⟩
  cases q with
  | noSearch => exact checkSearch_eq r
  | operands => exact checkOperands_eq r.conditions
  | tags => exact check_tags
  | noRootOr => exact check_noRootOr
  | sorts => exact check_sorts h
  | owners =>
    have hsorts := hbefore .sorts (by decide)
    obtain ⟨sorts, hok⟩ := hsplit hsorts
    exact check_owners h hsorts hok
  | uniqueness => exact check_uniqueness h
  | joinKeys =>
    have hsorts := hbefore .sorts (by decide)
    obtain ⟨sorts, hok⟩ := hsplit hsorts
    exact check_joinKeys h hsorts (hbefore .owners (by decide)) hok
  | listed =>
    obtain ⟨sorts, hok⟩ := hsplit (hbefore .sorts (by decide))
    exact check_listed hok

theorem make_eq_findSome? (h : (relations.map (·.property)).Nodup) (limits : Limits) :
    (do let _ ← Plan.make relations limits r) = ofFault (all.findSome? (fault? relations r)) := by
  rw [make_eq_forM_check, ← forM_ofFault]
  refine forM_congr fun front q back hsplit hfront => check_of_met_before h fun p hp => ?_
  rw [← eq_takeWhile_of_all hsplit] at hp
  have hok := hfront p hp
  apply (fault?_eq_none_iff h p).1
  cases hfault : p.fault? relations r with
  | none => rfl
  | some e =>
    rw [hfault] at hok
    cases hok

theorem forall_mem_all {P : Requirement → Prop} : (∀ q ∈ all, P q) ↔ ∀ q, P q := by
  refine ⟨fun h q => h q ?_, fun h q _ => h q⟩
  cases q <;> decide

theorem ok_or_error_of_eq_ofFault {α : Type} {x : Except Failure α} {fault? : Option Failure}
    (h : (do let _ ← x) = ofFault fault?) :
    ((∃ a, x = .ok a) ↔ fault? = none) ∧ ∀ e, x = .error e ↔ fault? = some e := by
  cases x <;> cases fault? <;> cases h
  · exact ⟨by simp, fun e => by simp⟩
  · exact ⟨by simp, fun e => by simp⟩

end Requirement

/-! ## Accepted and refused requests -/

/-- Exactly the requests that meet all requirements have a plan; any other is refused with the
fault of the first requirement that it does not meet. -/
theorem Plan.make_iff_requirements {relations : List Relation}
    (h : (relations.map (·.property)).Nodup) (limits : Limits) (r : Request) :
    ((∃ plan, make relations limits r = .ok plan) ↔ ∀ q : Requirement, q.Met relations r) ∧
      ∀ e, make relations limits r = .error e ↔ ∃ front q back,
        Requirement.all = front ++ q :: back ∧ (∀ p ∈ front, p.Met relations r) ∧
          ¬ q.Met relations r ∧ q.fault? relations r = some e := by
  have hmet := Requirement.fault?_eq_none_iff (r := r) h
  obtain ⟨hok, herror⟩ :=
    Requirement.ok_or_error_of_eq_ofFault (Requirement.make_eq_findSome? (r := r) h limits)
  constructor
  · rw [hok, List.findSome?_eq_none_iff, Requirement.forall_mem_all]
    exact forall_congr' hmet
  · intro e
    simp only [herror, List.findSome?_eq_some_iff, ← hmet]
    constructor
    · rintro ⟨front, q, back, hsplit, hfault, hfront⟩
      exact ⟨front, q, back, hsplit, hfront, by simp [hfault], hfault⟩
    · rintro ⟨front, q, back, hsplit, hfront, -, hfault⟩
      exact ⟨front, q, back, hsplit, hfault, hfront⟩

namespace Shop

/-- Customers with their orders, who have to have one, and the tier they belong to. -/
def tieredRelations : List Relation :=
  [orders.withJoin .inner, .belongsTo "tier" "tiers" "id" "rank"]

/-- Asks for a tier, for the undeclared and for orders that nothing makes unique. -/
def faulty : Request :=
  { Request.empty with
    filters := [⟨"level", .notNull, .null, some "tier"⟩]
    relations := ["reviews"] }

/-- Of the three faults the one of the tier is reported. -/
theorem make_faulty : Plan.make tieredRelations ⟨3, 100, 10, true⟩ faulty =
    .error (.ownerRelationConstraint "tier") := by
  have hnodup : (tieredRelations.map (·.property)).Nodup := by decide
  have hmet (q : Requirement) := Requirement.fault?_eq_none_iff (r := faulty) hnodup q
  apply ((Plan.make_iff_requirements hnodup ⟨3, 100, 10, true⟩ faulty).2 _).2
  refine ⟨[.noSearch, .operands, .tags, .noRootOr, .sorts], .owners, _, rfl, fun p hp => ?_, ?_, rfl⟩
  · rw [← hmet p]
    fin_cases hp <;> rfl
  · rw [← hmet .owners]
    exact fun h => nomatch h

end Shop

end FederatedJoin
