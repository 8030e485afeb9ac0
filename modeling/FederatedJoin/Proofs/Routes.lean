-- SUMMARY: Every condition and every sort key of a request goes to exactly one place.
import FederatedJoin.Proofs.Checks
import Mathlib.Algebra.Order.Group.Multiset
import Mathlib.Data.List.Perm.Basic

/-!
# Routes

A condition goes to the root if it has no tag, to the relation that its tag
names, or, by its tag alone, to the unknown names. Lists keep their order. What
the federation adds are checks for foreign keys, at the end of a first list and
never twice. Put together, the places hold what the request holds, and the
checks.
-/

namespace FederatedJoin

/-- The condition with a relation's tag. -/
def Condition.tagged (c : Condition) (property : String) : Condition :=
  { c with relation := some property }

/-- The key with a relation's tag. -/
def SortKey.tagged (key : SortKey) (property : String) : SortKey :=
  { key with relation := some property }

/-- The condition has a tag that no relation declares. -/
def Condition.isUnknown (relations : List Relation) (c : Condition) : Bool :=
  c.relation.any (¬ Declared relations ·)

namespace Relation

/-- The conditions about the relation, without their tags. -/
def own (relation : Relation) (conditions : List Condition) : List Condition :=
  (conditions.filter (·.relation = some relation.property)).map (·.untagged)

end Relation

namespace Request

/-- The relation has to have a record: it is joined inner, or sorted by. -/
def Asks (r : Request) (relation : Relation) : Prop :=
  relation.isInner = true ∨ r.SortsBy relation

instance (r : Request) (relation : Relation) : Decidable (r.Asks relation) :=
  inferInstanceAs (Decidable (_ ∨ _))

/-- The checks for foreign keys of the root, one for each key of an owner relation that has to have a
record and that no condition on the root asks for already. -/
def rootChecks (r : Request) (relations : List Relation) : List Condition :=
  (((relations.filter fun x => x.owner ∧ r.Asks x).map (·.foreignKey)).filter fun key =>
    !(r.filters.filter (·.relation.isNone)).any (·.sameCheck (.notNull key))).eraseDups.map .notNull

/-- The check for the foreign key of a relation's rows, where the relation has to have a record and no
condition on it asks for the key already. -/
def relationChecks (r : Request) (relation : Relation) : List Condition :=
  if relation.owner = false ∧ r.Asks relation ∧
      (relation.own r.filters).any (·.sameCheck (.notNull relation.foreignKey)) = false then
    [.notNull relation.foreignKey]
  else []

end Request

namespace Routing

variable {relations : List Relation}

/-- The conditions of one list of all relations, with their tags. -/
def collected (routing : Routing relations) (read : FilterSet → List Condition) : List Condition :=
  (List.finRange relations.length).flatMap fun id =>
    (read (routing.sets.get id)).map (·.tagged (relations.get id).property)

/-- What has become of the conditions and sort keys of a request: what every place holds, and that
nothing is lost or kept twice. -/
structure Routes (r : Request) (routing : Routing relations) (sorts : SortSplit relations) :
    Prop where
  rootFilters : routing.rootFilters =
    r.filters.filter (·.relation.isNone) ++ r.rootChecks relations
  rootOrFilters : routing.rootOrFilters = r.orFilters.filter (·.relation.isNone)
  filters : ∀ id, (routing.sets.get id).filters =
    (relations.get id).own r.filters ++ r.relationChecks (relations.get id)
  orFilters : ∀ id, (routing.sets.get id).orFilters = (relations.get id).own r.orFilters
  unresolved : routing.unresolved =
    (((r.filters ++ r.orFilters).filterMap (·.relation)).filter (¬ Declared relations ·)).eraseDups
  rootSorts : sorts.rootSorts = r.sorts.filter (·.relation.isNone)
  relationSorts : sorts.relationSorts.map (fun p => ((relations.get p.1).property, p.2)) =
    r.sorts.filterMap fun key => key.relation.map fun name => (name, key.untagged)
  filtersKept : (routing.rootFilters ++ routing.collected (·.filters) ++
      r.filters.filter (·.isUnknown relations)).Perm
    (r.filters ++ (r.rootChecks relations ++
      relations.flatMap fun x => (r.relationChecks x).map (·.tagged x.property)))
  orFiltersKept : (routing.rootOrFilters ++ routing.collected (·.orFilters) ++
      r.orFilters.filter (·.isUnknown relations)).Perm r.orFilters
  sortsKept : (sorts.rootSorts ++
      sorts.relationSorts.map fun p => p.2.tagged (relations.get p.1).property).Perm r.sorts

/-! ## Checks -/

theorem sameCheck_notNull_iff {key other : String} :
    (Condition.notNull key).sameCheck (.notNull other) = true ↔ key = other := by
  simp [Condition.sameCheck, Condition.notNull]

/-- Checks that are added one after the other: each key that is new, once. -/
theorem foldl_addCheck (keys : List String) (conditions : List Condition) :
    keys.foldl (fun cs key => addCheck (.notNull key) cs) conditions = conditions ++
      (keys.filter fun key => !conditions.any (·.sameCheck (.notNull key))).eraseDups.map
        .notNull := by
  induction keys generalizing conditions with
  | nil => simp
  | cons key rest ih =>
    rw [List.foldl_cons, ih, addCheck]
    cases hany : conditions.any (·.sameCheck (.notNull key)) with
    | true => simp [hany]
    | false =>
      have hstep : (rest.filter fun other =>
            !(conditions ++ [Condition.notNull key]).any (·.sameCheck (.notNull other))) =
          (rest.filter fun other => !conditions.any (·.sameCheck (.notNull other))).filter
            fun other => !other == key := by
        rw [List.filter_filter]
        apply List.filter_congr
        intro other _
        have hsame : (Condition.notNull key).sameCheck (.notNull other) = (other == key) := by
          rw [Bool.eq_iff_iff, sameCheck_notNull_iff, beq_iff_eq, eq_comm]
        simp only [List.any_append, List.any_cons, List.any_nil, Bool.or_false, hsame, Bool.not_or,
          Bool.and_comm]
      rw [if_neg Bool.false_ne_true, hstep, List.filter_cons_of_pos (by rw [hany]; rfl),
        List.eraseDups_cons, List.map_cons, List.append_assoc]
      rfl

theorem rootFilters_foldl_ensureExistence (ids : List (RelationId relations))
    (routing : Routing relations) : (ids.foldl ensureExistence routing).rootFilters =
      ((ids.filter fun id => (relations.get id).owner).map fun id =>
        (relations.get id).foreignKey).foldl (fun cs key => addCheck (.notNull key) cs)
          routing.rootFilters := by
  induction ids generalizing routing with
  | nil => rfl
  | cons id rest ih =>
    rw [List.foldl_cons, ih]
    cases howner : (relations.get id).owner with
    | true =>
      rw [ensureExistence_of_owner howner, List.filter_cons, howner, if_pos rfl]
      rfl
    | false =>
      rw [rootFilters_ensureExistence_of_forward howner, List.filter_cons, howner,
        if_neg Bool.false_ne_true]

theorem rootFilters_ofRequest (h : (relations.map (·.property)).Nodup) (r : Request) :
    (ofRequest relations r).rootFilters =
      r.filters.filter (·.relation.isNone) ++ r.rootChecks relations := by
  have hkeys : (((List.finRange relations.length).filter (isAsked r)).filter fun id =>
        (relations.get id).owner).map (fun id => (relations.get id).foreignKey) =
      (relations.filter fun x => x.owner ∧ r.Asks x).map (·.foreignKey) := by
    have hget := List.filter_map (f := relations.get) (l := List.finRange relations.length)
      (p := fun x : Relation => decide (x.owner = true ∧ r.Asks x))
    rw [List.map_get_finRange] at hget
    rw [hget, List.map_map, List.filter_filter]
    congr 1
    apply List.filter_congr
    intro id _
    rw [Bool.eq_iff_iff, Bool.and_eq_true, Requirement.isAsked_iff h]
    exact decide_eq_true_iff.symm
  show (((List.finRange relations.length).filter (isAsked r)).foldl ensureExistence
    (distribute relations r)).rootFilters = _
  rw [rootFilters_foldl_ensureExistence, hkeys, foldl_addCheck]
  rfl

/-! ## Relations -/

theorem conditionsOf_eq_own (h : (relations.map (·.property)).Nodup) (id : RelationId relations)
    (conditions : List Condition) :
    conditionsOf id conditions = (relations.get id).own conditions := by
  simp only [conditionsOf, Relation.own, Scope.ofTag_eq_relation_iff h]

theorem orFilters_ofRequest (h : (relations.map (·.property)).Nodup) (r : Request)
    (id : RelationId relations) : ((ofRequest relations r).sets.get id).orFilters =
      (relations.get id).own r.orFilters := by
  rw [get_sets_ofRequest, ← conditionsOf_eq_own h]
  split <;> rfl

theorem filters_ofRequest (h : (relations.map (·.property)).Nodup) (r : Request)
    (id : RelationId relations) : ((ofRequest relations r).sets.get id).filters =
      (relations.get id).own r.filters ++ r.relationChecks (relations.get id) := by
  rw [get_sets_ofRequest, ← conditionsOf_eq_own h, Request.relationChecks, ← conditionsOf_eq_own h]
  by_cases hasked : isAsked r id = true ∧ (relations.get id).owner = false
  · have hasks : r.Asks (relations.get id) := (Requirement.isAsked_iff h id).1 hasked.1
    rw [if_pos hasked]
    show addCheck _ (conditionsOf id r.filters) = _
    unfold addCheck
    cases hany : (conditionsOf id r.filters).any (·.sameCheck (existenceCheck (relations.get id)))
    with
    | true =>
      rw [if_pos rfl, if_neg, List.append_nil]
      exact fun hnone => Bool.noConfusion (hany.symm.trans hnone.2.2)
    | false => rw [if_neg Bool.false_ne_true, if_pos ⟨hasked.2, hasks, hany⟩, existenceCheck]
  · rw [if_neg hasked, if_neg, List.append_nil]
    · rfl
    · exact fun hall => hasked ⟨(Requirement.isAsked_iff h id).2 hall.2.1, hall.1⟩

/-! ## Conservation -/

/-- Items that bear one of these tags, tag by tag. -/
theorem flatMap_filter_perm {α : Type} {names : List String} (h : names.Nodup)
    (tag : α → Option String) (xs : List α) :
    (names.flatMap fun name => xs.filter (tag · = some name)).Perm
      (xs.filter fun x => (tag x).any (· ∈ names)) := by
  induction names with
  | nil => simp
  | cons name rest ih =>
    obtain ⟨hname, hrest⟩ := List.nodup_cons.1 h
    have hsplit := List.filter_append_perm (fun x => decide (tag x = some name))
      (xs.filter fun x => (tag x).any (· ∈ name :: rest))
    have hhere : (xs.filter fun x => (tag x).any (· ∈ name :: rest)).filter
        (fun x => decide (tag x = some name)) = xs.filter (tag · = some name) := by
      rw [List.filter_filter]
      apply List.filter_congr
      intro x _
      cases htag : tag x <;> simp +contextual
    have hlater : (xs.filter fun x => (tag x).any (· ∈ name :: rest)).filter
        (fun x => !decide (tag x = some name)) = xs.filter fun x => (tag x).any (· ∈ rest) := by
      rw [List.filter_filter]
      apply List.filter_congr
      intro x _
      cases htag : tag x with
      | none => simp
      | some other =>
        have hne : other ∈ rest → other ≠ name := by
          rintro hmem rfl
          exact hname hmem
        simp only [Option.some.injEq, Option.any_some, List.mem_cons]
        grind
    rw [hhere, hlater] at hsplit
    rw [List.flatMap_cons]
    exact ((ih hrest).append_left _).trans hsplit

theorem tagged_untagged {c : Condition} {property : String} (h : c.relation = some property) :
    c.untagged.tagged property = c := by
  cases c
  cases h
  rfl

theorem map_tagged_own (relation : Relation) (conditions : List Condition) :
    (relation.own conditions).map (·.tagged relation.property) =
      conditions.filter (·.relation = some relation.property) := by
  rw [Relation.own, List.map_map]
  apply (List.map_congr_left _).trans (List.map_id _)
  intro c hc
  exact tagged_untagged (of_decide_eq_true (List.mem_filter.1 hc).2)

/-- Every condition has one place. -/
theorem places_perm (h : (relations.map (·.property)).Nodup) (conditions : List Condition) :
    (conditions.filter (·.relation.isNone) ++
      (relations.flatMap fun x => conditions.filter (·.relation = some x.property)) ++
        conditions.filter (·.isUnknown relations)).Perm conditions := by
  have hknown := flatMap_filter_perm h (·.relation) conditions
  rw [List.flatMap_map] at hknown
  -- the conditions with a tag, split by whether it is declared
  have htagged := List.filter_append_perm
    (fun c => c.relation.any (· ∈ relations.map (·.property)))
    (conditions.filter fun c => !c.relation.isNone)
  have hdeclared : (conditions.filter fun c => !c.relation.isNone).filter
      (fun c => c.relation.any (· ∈ relations.map (·.property))) =
        conditions.filter fun c => c.relation.any (· ∈ relations.map (·.property)) := by
    rw [List.filter_filter]
    apply List.filter_congr
    intro c _
    cases c.relation <;> simp
  have hunknown : (conditions.filter fun c => !c.relation.isNone).filter
      (fun c => !c.relation.any (· ∈ relations.map (·.property))) =
        conditions.filter (·.isUnknown relations) := by
    rw [List.filter_filter]
    apply List.filter_congr
    intro c _
    have hdeclared : ∀ name, Declared relations name ↔ name ∈ relations.map (·.property) :=
      fun name => List.mem_map.symm
    cases htag : c.relation with
    | none => simp only [Condition.isUnknown, htag, Option.any_none, Option.isNone_none,
        Bool.not_true, Bool.and_false]
    | some name => simp only [Condition.isUnknown, htag, Option.any_some, Option.isNone_some,
        Bool.not_false, Bool.and_true, hdeclared, decide_not]
  rw [hdeclared, hunknown] at htagged
  have hall := List.filter_append_perm (·.relation.isNone) conditions
  rw [List.append_assoc]
  exact (((hknown.append_right _).trans htagged).append_left _).trans hall

theorem collected_eq {routing : Routing relations} {read : FilterSet → List Condition}
    (held : Relation → List Condition)
    (h : ∀ id, read (routing.sets.get id) = held (relations.get id)) :
    routing.collected read = relations.flatMap fun x => (held x).map (·.tagged x.property) := by
  have hmap := List.flatMap_map (f := relations.get) (l := List.finRange relations.length)
    (g := fun x => (held x).map (·.tagged x.property))
  rw [List.map_get_finRange] at hmap
  rw [hmap, collected]
  apply List.flatMap_congr
  intro id _
  rw [h]

theorem filtersKept_ofRequest (h : (relations.map (·.property)).Nodup) (r : Request) :
    ((ofRequest relations r).rootFilters ++ (ofRequest relations r).collected (·.filters) ++
        r.filters.filter (·.isUnknown relations)).Perm
      (r.filters ++ (r.rootChecks relations ++
        relations.flatMap fun x => (r.relationChecks x).map (·.tagged x.property))) := by
  have hplaces := places_perm h r.filters
  have hsets := List.flatMap_append_perm relations
    (fun x => r.filters.filter (·.relation = some x.property))
    fun x => (r.relationChecks x).map (·.tagged x.property)
  rw [rootFilters_ofRequest h,
    collected_eq (fun x => x.own r.filters ++ r.relationChecks x) (filters_ofRequest h r)]
  simp only [List.map_append, map_tagged_own]
  rw [← Multiset.coe_eq_coe] at *
  simp only [← Multiset.coe_add] at *
  rw [← hsets, ← hplaces]
  ac_rfl

theorem orFiltersKept_ofRequest (h : (relations.map (·.property)).Nodup) (r : Request) :
    ((ofRequest relations r).rootOrFilters ++ (ofRequest relations r).collected (·.orFilters) ++
      r.orFilters.filter (·.isUnknown relations)).Perm r.orFilters := by
  rw [Requirement.rootOrFilters_ofRequest,
    collected_eq (fun x => x.own r.orFilters) (orFilters_ofRequest h r)]
  simp only [map_tagged_own]
  exact places_perm h r.orFilters

/-! ## Sort keys -/

theorem sortsKept_ofRequest {r : Request} {sorts : SortSplit relations}
    (hsorts : SortSplit.ofRequest relations r = .ok sorts) :
    (sorts.rootSorts ++
      sorts.relationSorts.map fun p => p.2.tagged (relations.get p.1).property).Perm r.sorts := by
  obtain ⟨hrelation, hroot⟩ := Requirement.parts_ofKeys hsorts
  have htagged : (sorts.relationSorts.map fun p => p.2.tagged (relations.get p.1).property) =
      r.sorts.filter fun key => !key.relation.isNone := by
    have hretag := congrArg (List.map fun p : String × SortKey => p.2.tagged p.1) hrelation
    rw [List.map_map, List.map_filterMap] at hretag
    refine hretag.trans ?_
    rw [← List.filterMap_eq_filter]
    apply List.filterMap_congr
    intro key _
    obtain ⟨field, direction, relation⟩ := key
    cases relation <;> rfl
  rw [hroot, htagged]
  exact List.filter_append_perm (·.relation.isNone) r.sorts

/-- Routing a request and splitting its sort keys gives every condition and every key one place, in
the order of the request, and adds nothing but the checks. -/
theorem routes_ofRequest (h : (relations.map (·.property)).Nodup) {r : Request}
    {sorts : SortSplit relations} (hsorts : SortSplit.ofRequest relations r = .ok sorts) :
    Routes r (ofRequest relations r) sorts where
  rootFilters := rootFilters_ofRequest h r
  rootOrFilters := Requirement.rootOrFilters_ofRequest relations r
  filters := filters_ofRequest h r
  orFilters := orFilters_ofRequest h r
  unresolved := by
    rw [Requirement.unresolved_ofRequest, Requirement.filterMap_unknownTag?]
    rfl
  rootSorts := (Requirement.parts_ofKeys hsorts).2
  relationSorts := (Requirement.parts_ofKeys hsorts).1
  filtersKept := filtersKept_ofRequest h r
  orFiltersKept := orFiltersKept_ofRequest h r
  sortsKept := sortsKept_ofRequest hsorts

end Routing

namespace Shop

/-- The orders of a customer, one of them, and the tier that every customer has to belong to. -/
def joinedRelations : List Relation :=
  [orders, anOrder.withJoin .inner, (Relation.belongsTo "tier" "tiers" "id" "rank").withJoin .inner]

/-- Conditions on customers, on their orders and on what nobody declares, mixed up. -/
def mixedRequest : Request :=
  { Request.empty with
    filters := [⟨"price", .greater, .int 3, some "orders"⟩, ⟨"stock", .equal, .int 0, some "shops"⟩,
      ⟨"id", .less, .int 9, none⟩, ⟨"customer", .notNull, .null, some "order"⟩,
      ⟨"price", .less, .int 7, some "orders"⟩]
    orFilters := [⟨"price", .equal, .int 8, some "order"⟩, ⟨"name", .equal, .null, some "staff"⟩,
      ⟨"name", .equal, .null, some "shops"⟩]
    sorts := [⟨"rank", .descending, none⟩, ⟨"price", .ascending, some "order"⟩,
      ⟨"id", .ascending, none⟩] }

/-- The root is asked for the tier; the one order has its check already. -/
theorem routes_mixedRequest : ∃ sorts,
    SortSplit.ofRequest joinedRelations mixedRequest = .ok sorts ∧
    Routing.Routes mixedRequest (Routing.ofRequest joinedRelations mixedRequest) sorts ∧
    mixedRequest.rootChecks joinedRelations = [.notNull "rank"] ∧
    (Routing.ofRequest joinedRelations mixedRequest).unresolved = ["shops", "staff"] :=
  ⟨_, rfl, Routing.routes_ofRequest (by decide) rfl, rfl, rfl⟩

end Shop

end FederatedJoin
