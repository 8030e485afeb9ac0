-- SUMMARY: What a request has to meet to be federated, and the fault that is reported when it does not.
import FederatedJoin.Plan
import Mathlib.Logic.Basic

/-!
# Requirements

Whether a request can be federated is a matter of nine requirements on the
request and the declared relations. Planning does not read them off the request:
it checks what routing, the splitting of sort keys and the choice of a strategy
have made of it. It accepts a request exactly when all requirements are met, and
otherwise it reports the first that is not.
-/

namespace FederatedJoin

/-! ## What a request says of a relation -/

namespace Request

/-- The conditions in the order in which they are checked. -/
def conditions (r : Request) : List Condition := r.filters ++ r.orFilters

/-- Some condition is tagged with the relation. -/
def Constrains (r : Request) (relation : Relation) : Prop :=
  ∃ c ∈ r.conditions, c.relation = some relation.property

/-- Some sort key is tagged with the relation. -/
def SortsBy (r : Request) (relation : Relation) : Prop :=
  ∃ key ∈ r.sorts, key.relation = some relation.property

/-- The relation's rows have to name the roots. -/
def Joins (r : Request) (relation : Relation) : Prop :=
  relation.owner = false ∧ (relation.isInner = true ∨ r.Constrains relation ∨ r.SortsBy relation)

variable (r : Request) (relation : Relation)

instance : Decidable (r.Constrains relation) :=
  inferInstanceAs (Decidable (∃ c ∈ r.conditions, c.relation = some relation.property))

instance : Decidable (r.SortsBy relation) :=
  inferInstanceAs (Decidable (∃ key ∈ r.sorts, key.relation = some relation.property))

instance : Decidable (r.Joins relation) :=
  inferInstanceAs (Decidable (_ ∧ _))

end Request

/-- Some relation has the property. -/
def Declared (relations : List Relation) (name : String) : Prop :=
  ∃ relation ∈ relations, relation.property = name

instance (relations : List Relation) (name : String) : Decidable (Declared relations name) :=
  inferInstanceAs (Decidable (∃ relation ∈ relations, relation.property = name))

/-! ## Requirements and faults -/

inductive Requirement where
  | noSearch | operands | tags | noRootOr | sorts | owners | uniqueness | joinKeys | listed
  deriving DecidableEq

namespace Requirement

/-- The requirements in the order in which their faults are reported. -/
def all : List Requirement :=
  [.noSearch, .operands, .tags, .noRootOr, .sorts, .owners, .uniqueness, .joinKeys, .listed]

def Met (relations : List Relation) (r : Request) : Requirement → Prop
  | .noSearch => r.search = none
  | .operands => ∀ c ∈ r.conditions, c.validate = .ok ()
  | .tags => ∀ c ∈ r.conditions, ∀ name, c.relation = some name → Declared relations name
  | .noRootOr => ∀ c ∈ r.orFilters, c.relation ≠ none
  | .sorts =>
    (∀ key ∈ r.sorts, ∀ name, key.relation = some name → Declared relations name) ∧
      (∀ relation ∈ relations, r.SortsBy relation → relation.isMany = true →
        relation.hasDistinctFilter = true) ∧
      ∀ a ∈ r.sorts, ∀ b ∈ r.sorts, ∀ m n, a.relation = some m → b.relation = some n → m = n
  | .owners => ∀ relation ∈ relations, relation.owner = true →
    ¬ r.Constrains relation ∧ ¬ r.SortsBy relation
  | .uniqueness => ∀ relation ∈ relations, relation.owner = false → relation.isMany = true →
    relation.isInner = true ∨ r.SortsBy relation → relation.hasDistinctFilter = true
  | .joinKeys => ∀ a ∈ relations, ∀ b ∈ relations, r.Joins a → r.Joins b →
    a.primaryKey = b.primaryKey
  | .listed => ∀ name ∈ r.relations, Declared relations name

def operandFault? (c : Condition) : Option Failure :=
  match c.validate with
  | .ok _ => none
  | .error e => some (.input e)

/-- The fault of one sort key, where `first?` is the tag of the first key that has one. -/
def sortFault? (relations : List Relation) (first? : Option String) (key : SortKey) :
    Option Failure :=
  match key.relation with
  | none => none
  | some name =>
    match relations.find? (·.property = name) with
    | none => some (.unknownRelation name)
    | some relation =>
      if relation.isMany && !relation.hasDistinctFilter then
        some (.missingDistinctFilter name key.field)
      else if first?.any (· ≠ name) then some (.multipleSortRelations (first?.getD name) name)
      else none

/-- The relation that drives discovery: the one sorted by, or else the first that joins. -/
def driving? (relations : List Relation) (r : Request) : Option Relation :=
  ((relations.filter (r.Joins ·)).find? (r.SortsBy ·)).or (relations.find? (r.Joins ·))

/-- What is reported when the requirement is not met: its first fault. -/
def fault? (relations : List Relation) (r : Request) : Requirement → Option Failure
  | .noSearch => r.search.map fun _ => .unsupportedSearch
  | .operands => r.conditions.findSome? operandFault?
  | .tags => ((r.conditions.filterMap (·.relation)).find? (¬ Declared relations ·)).map
    .unknownRelation
  | .noRootOr => (r.orFilters.find? (·.relation.isNone)).map fun _ => .unsupportedRootOr
  | .sorts => r.sorts.findSome? (sortFault? relations (r.sorts.filterMap (·.relation)).head?)
  | .owners =>
    ((relations.filter (r.Constrains ·) ++ relations.filter (r.SortsBy ·)).find? (·.owner)).map
      fun x => .ownerRelationConstraint x.property
  | .uniqueness =>
    (relations.find? fun x => ¬ x.owner ∧ (x.isInner ∨ r.SortsBy x) ∧ x.isMany ∧
      ¬ x.hasDistinctFilter).map fun x => .missingDistinctFilter x.property x.foreignKey
  | .joinKeys =>
    (driving? relations r).bind fun driving =>
      (relations.find? fun x => r.Joins x ∧ x.primaryKey ≠ driving.primaryKey).map fun x =>
        .mismatchedJoinKey x.property driving.primaryKey x.primaryKey
  | .listed => (r.relations.find? (¬ Declared relations ·)).map .unknownRelation

/-! ## A requirement is met if it has no fault -/

variable {relations : List Relation} {r : Request}

theorem operandFault?_eq_none_iff {c : Condition} :
    operandFault? c = none ↔ c.validate = .ok () := by
  unfold operandFault?
  cases c.validate with
  | ok _ => exact iff_of_true rfl rfl
  | error e => exact iff_of_false (fun h => nomatch h) (fun h => nomatch h)

theorem find?_property_eq_some_iff (h : (relations.map (·.property)).Nodup) {name : String}
    {relation : Relation} : relations.find? (·.property = name) = some relation ↔
      relation ∈ relations ∧ relation.property = name := by
  constructor
  · intro hfind
    exact ⟨List.mem_of_find?_eq_some hfind, by simpa using List.find?_some hfind⟩
  · rintro ⟨hmem, rfl⟩
    induction relations with
    | nil => cases hmem
    | cons first rest ih =>
      obtain ⟨hfirst, hrest⟩ := List.nodup_cons.1 h
      rcases List.mem_cons.1 hmem with rfl | hmem
      · exact List.find?_cons_of_pos (decide_eq_true rfl)
      · have hne : first.property ≠ relation.property := fun heq =>
          hfirst (List.mem_map.2 ⟨relation, hmem, heq.symm⟩)
        rw [List.find?_cons_of_neg (by simpa using hne)]
        exact ih hrest hmem

theorem find?_property_eq_none_iff {name : String} :
    relations.find? (·.property = name) = none ↔ ¬ Declared relations name := by
  simp [Declared]

/-- A sort key has no fault if it has no tag, or names a relation as it should. -/
theorem sortFault?_eq_none_iff (h : (relations.map (·.property)).Nodup) {first? : Option String}
    {key : SortKey} : sortFault? relations first? key = none ↔
      ∀ name, key.relation = some name → (∀ first, first? = some first → first = name) ∧
        ∃ relation ∈ relations, relation.property = name ∧
          (relation.isMany = true → relation.hasDistinctFilter = true) := by
  unfold sortFault?
  cases htag : key.relation with
  | none => exact iff_of_true rfl fun name h => nomatch h
  | some name =>
    simp only [Option.some.injEq, forall_eq']
    cases hfind : relations.find? (·.property = name) with
    | none =>
      refine iff_of_false (fun h => nomatch h) ?_
      rintro ⟨-, relation, hrelation, hname, -⟩
      exact find?_property_eq_none_iff.1 hfind ⟨relation, hrelation, hname⟩
    | some relation =>
      obtain ⟨hrelation, hname⟩ := (find?_property_eq_some_iff h).1 hfind
      have honly : (∃ other ∈ relations, other.property = name ∧
          (other.isMany = true → other.hasDistinctFilter = true)) ↔
            (relation.isMany = true → relation.hasDistinctFilter = true) := by
        constructor
        · rintro ⟨other, hother, hotherName, hdistinct⟩
          rw [(find?_property_eq_some_iff h).2 ⟨hother, hotherName⟩] at hfind
          exact Option.some.inj hfind ▸ hdistinct
        · exact fun hdistinct => ⟨relation, hrelation, hname, hdistinct⟩
      rw [honly]
      dsimp only
      by_cases hfault : (relation.isMany && !relation.hasDistinctFilter) = true
      · rw [if_pos hfault]
        refine iff_of_false (fun h => nomatch h) fun hsound => ?_
        simp only [Bool.and_eq_true, Bool.not_eq_true'] at hfault
        exact absurd (hsound.2 hfault.1) (Bool.eq_false_iff.1 hfault.2)
      · have hdistinct : relation.isMany = true → relation.hasDistinctFilter = true := by
          simpa using hfault
        rw [if_neg hfault]
        rw [and_iff_left hdistinct]
        cases first? <;> simp

theorem sorts_fault?_eq_none_iff (h : (relations.map (·.property)).Nodup) :
    fault? relations r .sorts = none ↔ Met relations r .sorts := by
  simp only [fault?, Met, List.findSome?_eq_none_iff, sortFault?_eq_none_iff h]
  constructor
  · intro hkeys
    refine ⟨fun key hkey name htag => ?_, fun relation hrelation hsorted hmany => ?_, ?_⟩
    · obtain ⟨-, relation, hrelation, hname, -⟩ := hkeys key hkey name htag
      exact ⟨relation, hrelation, hname⟩
    · obtain ⟨key, hkey, htag⟩ := hsorted
      obtain ⟨-, other, hother, hname, hdistinct⟩ := hkeys key hkey _ htag
      have hsame := (find?_property_eq_some_iff h).2 ⟨hother, hname⟩
      rw [(find?_property_eq_some_iff h).2 ⟨hrelation, rfl⟩] at hsame
      cases hsame
      exact hdistinct hmany
    · intro a ha b hb m n hm hn
      cases hfirst : (r.sorts.filterMap (·.relation)).head? with
      | none =>
        have hmem : m ∈ r.sorts.filterMap (·.relation) := List.mem_filterMap.2 ⟨a, ha, hm⟩
        rw [List.head?_eq_none_iff.1 hfirst] at hmem
        cases hmem
      | some first =>
        exact ((hkeys a ha m hm).1 first hfirst).symm.trans ((hkeys b hb n hn).1 first hfirst)
  · rintro ⟨hdeclared, hdistinct, hsame⟩ key hkey name htag
    constructor
    · intro first hfirst
      obtain ⟨a, ha, hm⟩ := List.mem_filterMap.1 (List.mem_of_head? hfirst)
      exact hsame a ha key hkey _ _ hm htag
    · obtain ⟨relation, hrelation, rfl⟩ := hdeclared key hkey name htag
      exact ⟨relation, hrelation, rfl, hdistinct relation hrelation ⟨key, hkey, htag⟩⟩

theorem mem_driving? {driving : Relation} (h : driving? relations r = some driving) :
    driving ∈ relations ∧ r.Joins driving := by
  rcases Option.or_eq_some_iff.1 h with hsorted | ⟨-, hfirst⟩
  · have hmem := List.mem_filter.1 (List.mem_of_find?_eq_some hsorted)
    exact ⟨hmem.1, of_decide_eq_true hmem.2⟩
  · exact ⟨List.mem_of_find?_eq_some hfirst, by simpa using List.find?_some hfirst⟩

theorem driving?_eq_none_iff :
    driving? relations r = none ↔ ∀ relation ∈ relations, ¬ r.Joins relation := by
  constructor
  · intro h
    simpa using (Option.or_eq_none_iff.1 h).2
  · intro h
    cases hdriving : driving? relations r with
    | none => rfl
    | some driving => exact absurd (mem_driving? hdriving).2 (h _ (mem_driving? hdriving).1)

theorem joinKeys_fault?_eq_none_iff :
    fault? relations r .joinKeys = none ↔ Met relations r .joinKeys := by
  cases hdriving : driving? relations r with
  | none =>
    have hnone := driving?_eq_none_iff.1 hdriving
    exact iff_of_true (by simp only [fault?, hdriving, Option.bind_none])
      fun a ha _ _ hjoins => absurd hjoins (hnone a ha)
  | some driving =>
    obtain ⟨hmem, hjoins⟩ := mem_driving? hdriving
    simp only [fault?, hdriving, Met, Option.bind_some, Option.map_eq_none_iff,
      List.find?_eq_none, decide_eq_true_eq, not_and, not_not]
    constructor
    · intro hsame a ha b hb hajoins hbjoins
      exact (hsame a ha hajoins).trans (hsame b hb hbjoins).symm
    · exact fun hsame x hx hxjoins => hsame x hx driving hmem hxjoins hjoins

theorem fault?_eq_none_iff (h : (relations.map (·.property)).Nodup) (q : Requirement) :
    q.fault? relations r = none ↔ q.Met relations r := by
  cases q with
  | noSearch => simp [fault?, Met]
  | operands => simp [fault?, Met, operandFault?_eq_none_iff]
  | tags =>
    simp only [fault?, Met, Option.map_eq_none_iff, List.find?_eq_none, List.mem_filterMap,
      decide_eq_true_eq, not_not, forall_exists_index, and_imp]
    exact ⟨fun hall c hc name => hall name c hc, fun hall name c hc => hall c hc name⟩
  | noRootOr => simp [fault?, Met]
  | sorts => exact sorts_fault?_eq_none_iff h
  | owners =>
    simp only [fault?, Met, Option.map_eq_none_iff, List.find?_eq_none, List.mem_append,
      List.mem_filter, decide_eq_true_eq]
    constructor
    · intro hnone relation hrelation howner
      exact ⟨fun hc => hnone relation (.inl ⟨hrelation, hc⟩) howner,
        fun hs => hnone relation (.inr ⟨hrelation, hs⟩) howner⟩
    · rintro hnone relation (⟨hrelation, hc⟩ | ⟨hrelation, hs⟩) howner
      · exact (hnone relation hrelation howner).1 hc
      · exact (hnone relation hrelation howner).2 hs
  | uniqueness =>
    simp only [fault?, Met, Option.map_eq_none_iff, List.find?_eq_none, decide_eq_true_eq,
      not_and, Bool.not_eq_true, Bool.not_eq_false]
    exact ⟨fun hall x hx howner hmany hasked => hall x hx howner hasked hmany,
      fun hall x hx howner hasked hmany => hall x hx howner hmany hasked⟩
  | joinKeys => exact joinKeys_fault?_eq_none_iff
  | listed => simp [fault?, Met]

end Requirement

end FederatedJoin
