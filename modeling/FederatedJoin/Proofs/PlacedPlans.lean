-- SUMMARY: Planning with relations known by bare numbers never looks beyond a list and makes the same plan.
import FederatedJoin.Proofs.ExistenceChecks
import FederatedJoin.Proofs.Places
import FederatedJoin.Proofs.PlanShapes
import FederatedJoin.Proofs.Unguarded

/-!
# Plans by place

In a plan a relation is an id, which cannot be out of range. Here the same plan is
made with bare numbers: tags are looked up in the dictionary of places, and the
numbers that come out of it are used to look up declarations, sets of conditions and
the marks of selected relations. None of these lists was made together with the
dictionary, and no lookup is guarded; all the same none is beyond the end of its list.
What is made is the plan, with each id as its number, or the failure is the same.
-/

namespace FederatedJoin

open Unguarded

variable {relations : List Relation}

/-! ## Routing -/

/-- A routing with relations by number. -/
@[ext]
structure PlacedRouting where
  rootFilters : List Condition
  rootOrFilters : List Condition
  sets : List FilterSet
  existence : List Nat
  unresolved : List String

/-- The set with one condition more, in the list that the condition comes from. -/
def FilterSet.add (disjunctive : Bool) (c : Condition) (s : FilterSet) : FilterSet :=
  if disjunctive then { s with orFilters := s.orFilters ++ [c] }
  else { s with filters := s.filters ++ [c] }

theorem FilterSet.ite_add (p : Prop) [Decidable p] (disjunctive : Bool)
    (c : Condition) (s : FilterSet) : (if p then s.add disjunctive c else s) =
      if disjunctive then { s with orFilters := s.orFilters ++ if p then [c] else [] }
      else { s with filters := s.filters ++ if p then [c] else [] } := by
  by_cases hp : p <;> cases disjunctive <;> simp [FilterSet.add, hp]

namespace PlacedRouting

def empty (relations : List Relation) : PlacedRouting :=
  ⟨[], [], List.replicate relations.length ⟨[], [], []⟩, [], []⟩

def addRoot (disjunctive : Bool) (c : Condition) (routing : PlacedRouting) : PlacedRouting :=
  if disjunctive then { routing with rootOrFilters := routing.rootOrFilters ++ [c] }
  else { routing with rootFilters := routing.rootFilters ++ [c] }

def updateSet (f : FilterSet → FilterSet) (place : Nat) (routing : PlacedRouting) :
    Unguarded PlacedRouting := do
  let sets ← update f routing.sets place
  return { routing with sets }

def addUnresolved (name : String) (routing : PlacedRouting) : PlacedRouting :=
  { routing with
    unresolved :=
      if name ∈ routing.unresolved then routing.unresolved else routing.unresolved ++ [name] }

/-- Puts a condition where its tag says. -/
def put (places : Dictionary Nat) (disjunctive : Bool) (routing : PlacedRouting) (c : Condition) :
    Unguarded PlacedRouting :=
  match c.relation with
  | none => return routing.addRoot disjunctive c
  | some name =>
    match places.get? name with
    | some place => routing.updateSet (FilterSet.add disjunctive c.untagged) place
    | none => return routing.addUnresolved name

def distribute (relations : List Relation) (r : Request) : Unguarded PlacedRouting := do
  let places := Relation.places relations
  let routing ← r.filters.foldlM (put places false) (empty relations)
  r.orFilters.foldlM (put places true) routing

def ensureExistence (relations : List Relation) (routing : PlacedRouting) (place : Nat) :
    Unguarded PlacedRouting := do
  let relation ← read relations place
  if relation.owner then
    return { routing with
      rootFilters := Routing.addCheck (.notNull relation.foreignKey) routing.rootFilters }
  else
    let asked ← routing.updateSet (Routing.checkedSet relation) place
    return { asked with
      existence :=
        if place ∈ routing.existence then routing.existence else routing.existence ++ [place] }

/-- The places that sort keys are tagged with. -/
def sorted (relations : List Relation) (r : Request) : List Nat :=
  r.sorts.filterMap fun key => key.relation.bind fun name => (Relation.places relations).get? name

def ofRequest (relations : List Relation) (r : Request) : Unguarded PlacedRouting := do
  let routing ← distribute relations r
  (List.range relations.length).foldlM (fun routing place => do
    let relation ← read relations place
    if relation.isInner || (sorted relations r).contains place then
      ensureExistence relations routing place
    else return routing) routing

def constrained (routing : PlacedRouting) : Unguarded (List Nat) :=
  keep (fun place => FilterSet.hasConstraints <$> read routing.sets place)
    (List.range routing.sets.length)

end PlacedRouting

/-- The routing with each id as its number. -/
def Routing.placed (routing : Routing relations) : PlacedRouting where
  rootFilters := routing.rootFilters
  rootOrFilters := routing.rootOrFilters
  sets := List.ofFn routing.sets.get
  existence := routing.existence.map Fin.val
  unresolved := routing.unresolved

namespace PlacedRouting

theorem updateSet_eq {routing : PlacedRouting} (sets : RelationId relations → FilterSet)
    (h : routing.sets = List.ofFn sets) (f : FilterSet → FilterSet) (id : RelationId relations) :
    routing.updateSet f id.val = pure { routing with
      sets := List.ofFn fun other => if id = other then f (sets other) else sets other } := by
  rw [updateSet, h, update_ofFn, pure_bind]

/-! ### Distribution -/

/-- What a routing holds when these conditions were put into it, in this order. -/
def holding (relations : List Relation) (filters orFilters all : List Condition) :
    PlacedRouting where
  rootFilters := filters.filter (·.relation.isNone)
  rootOrFilters := orFilters.filter (·.relation.isNone)
  sets := List.ofFn fun id : RelationId relations =>
    ⟨Routing.conditionsOf id filters, Routing.conditionsOf id orFilters, []⟩
  existence := []
  unresolved := (all.filterMap (Routing.unknownTag? relations)).eraseDups

theorem filter_untagged_concat (relations : List Relation) (cs : List Condition) (c : Condition) :
    (cs ++ [c]).filter (·.relation.isNone) = cs.filter (·.relation.isNone) ++
      if Scope.ofTag relations c.relation = .root then [c] else [] := by
  rw [List.filter_append]
  simp only [Routing.ofTag_eq_root_iff]
  cases htag : c.relation <;> simp [htag]

theorem conditionsOf_concat (id : RelationId relations) (cs : List Condition) (c : Condition) :
    Routing.conditionsOf id (cs ++ [c]) = Routing.conditionsOf id cs ++
      if Scope.ofTag relations c.relation = .relation id then [c.untagged] else [] := by
  unfold Routing.conditionsOf
  rw [List.filter_append, List.map_append, List.filter_singleton]
  split <;> simp_all

theorem eraseDups_concat (names : List String) (name : String) :
    (names ++ [name]).eraseDups =
      if name ∈ names.eraseDups then names.eraseDups else names.eraseDups ++ [name] := by
  rw [List.eraseDups_append]
  by_cases hname : name ∈ names
  · simp [hname, List.removeAll]
  · simp [hname, List.removeAll, List.eraseDups_cons]

/-- A condition is put where its tag resolves to. -/
theorem put_eq (disjunctive : Bool) (c : Condition) {routing : PlacedRouting}
    {sets : RelationId relations → FilterSet} (h : routing.sets = List.ofFn sets) :
    put (Relation.places relations) disjunctive routing c =
      pure (match Scope.ofTag relations c.relation with
      | .root => routing.addRoot disjunctive c
      | .relation id => { routing with
          sets := List.ofFn fun other =>
            if id = other then (sets other).add disjunctive c.untagged else sets other }
      | .unknown name => routing.addUnresolved name) := by
  unfold put Scope.ofTag
  cases c.relation with
  | none => rfl
  | some name =>
    dsimp only
    rw [Relation.get?_places]
    cases Relation.resolve? relations name with
    | none => rfl
    | some id => exact updateSet_eq sets h _ id

theorem put_holding (disjunctive : Bool) (filters orFilters all : List Condition) (c : Condition) :
    put (Relation.places relations) disjunctive (holding relations filters orFilters all) c =
      pure (if disjunctive then holding relations filters (orFilters ++ [c]) (all ++ [c])
        else holding relations (filters ++ [c]) orFilters (all ++ [c])) := by
  rw [put_eq disjunctive c rfl]
  simp only [holding, filter_untagged_concat relations, conditionsOf_concat,
    List.filterMap_append]
  cases hscope : Scope.ofTag relations c.relation with
  | root => cases disjunctive <;> simp [addRoot, Routing.unknownTag?, hscope]
  | relation id =>
    simp only [FilterSet.ite_add]
    cases disjunctive <;> simp [Routing.unknownTag?, hscope]
  | unknown name =>
    cases disjunctive <;> simp [addUnresolved, Routing.unknownTag?, hscope, eraseDups_concat]

theorem empty_eq_holding : empty relations = holding relations [] [] [] := by
  unfold empty holding
  rw [← List.ofFn_const]
  rfl

theorem distribute_eq (r : Request) :
    distribute relations r = pure (Routing.distribute relations r).placed := by
  have hfilters := foldlM_eq_pure_of_concat (fun cs => holding relations cs [] cs)
    (fun cs c => put_holding false cs [] cs c) r.filters
  have hor (cs : List Condition) (c : Condition) :
      put (Relation.places relations) true (holding relations r.filters cs (r.filters ++ cs)) c =
        pure (holding relations r.filters (cs ++ [c]) (r.filters ++ (cs ++ [c]))) := by
    rw [put_holding, if_pos rfl, List.append_assoc]
  have horFilters := foldlM_eq_pure_of_concat
    (fun cs => holding relations r.filters cs (r.filters ++ cs)) hor r.orFilters
  rw [List.append_nil] at horFilters
  -- after both lists the routing holds what the requested distribution is defined to hold
  have hplaced : holding relations r.filters r.orFilters (r.filters ++ r.orFilters) =
      (Routing.distribute relations r).placed := by
    have hsets : (Routing.distribute relations r).sets.get = fun id =>
        ⟨Routing.conditionsOf id r.filters, Routing.conditionsOf id r.orFilters, []⟩ :=
      funext fun id => Vector.getElem_ofFn ..
    unfold Routing.placed
    rw [hsets]
    rfl
  rw [← hplaced, distribute, empty_eq_holding, hfilters, pure_bind, horFilters]

/-! ### Existence checks -/

theorem ensureExistence_eq (routing : Routing relations) (id : RelationId relations) :
    ensureExistence relations routing.placed id.val =
      pure (routing.ensureExistence id).placed := by
  unfold ensureExistence
  rw [read_get, pure_bind]
  cases howner : (relations.get id).owner with
  | true =>
    rw [if_pos rfl, Routing.ensureExistence_of_owner howner]
    rfl
  | false =>
    have hsets : (routing.ensureExistence id).sets.get = fun other =>
        if id = other then Routing.checkedSet (relations.get id) (routing.sets.get other)
        else routing.sets.get other := by
      funext other
      rw [Routing.get_sets_ensureExistence]
      by_cases hother : id = other
      · subst hother
        rw [if_pos ⟨rfl, howner⟩, if_pos rfl]
      · rw [if_neg fun h => hother h.1, if_neg hother]
    have hmem : id.val ∈ routing.existence.map Fin.val ↔ id ∈ routing.existence :=
      List.mem_map_of_injective Fin.val_injective
    rw [if_neg Bool.false_ne_true, updateSet_eq routing.sets.get rfl, pure_bind, ← hsets,
      Routing.ensureExistence_of_forward howner]
    refine congrArg pure (PlacedRouting.ext rfl rfl rfl ?_ rfl)
    show (if id.val ∈ routing.existence.map Fin.val then _ else _) = List.map Fin.val (ite _ _ _)
    simp only [hmem]
    split
    · rfl
    · rw [List.map_append]
      rfl

theorem bind_get?_places_eq_some_iff (tag : Option String) (id : RelationId relations) :
    (tag.bind fun name => (Relation.places relations).get? name) = some id.val ↔
      Scope.ofTag relations tag = .relation id := by
  cases tag with
  | none => exact iff_of_false nofun nofun
  | some name =>
    rw [Option.bind_some, Relation.get?_places]
    cases hresolved : Relation.resolve? relations name with
    | none => simp [Scope.ofTag, hresolved]
    | some other => simp [Scope.ofTag, hresolved, Fin.ext_iff]

/-- A relation is sorted by when its place is among those of the sort keys. -/
theorem contains_sorted (r : Request) (id : RelationId relations) :
    (sorted relations r).contains id.val = Routing.sortsBy r id := by
  rw [Bool.eq_iff_iff, List.contains_iff_mem, sorted, List.mem_filterMap, Routing.sortsBy,
    List.any_eq_true]
  simp only [bind_get?_places_eq_some_iff, decide_eq_true_eq]

theorem ofRequest_eq (r : Request) :
    ofRequest relations r = pure (Routing.ofRequest relations r).placed := by
  unfold ofRequest
  rw [distribute_eq, pure_bind, ← List.map_coe_finRange_eq_range, List.foldlM_map]
  show _ = pure (((List.finRange relations.length).filter (Routing.isAsked r)).foldl
    Routing.ensureExistence (Routing.distribute relations r)).placed
  rw [List.foldl_filter]
  refine foldlM_eq_pure (fun routing id => ?_) _ _
  rw [read_get, pure_bind, contains_sorted]
  show (if Routing.isAsked r id = true then _ else _) = _
  split
  · exact ensureExistence_eq routing id
  · rfl

theorem constrained_eq (routing : Routing relations) :
    routing.placed.constrained = pure (routing.constrained.map Fin.val) := by
  unfold constrained
  rw [show routing.placed.sets = List.ofFn routing.sets.get from rfl, List.length_ofFn]
  refine keep_range fun id => ?_
  rw [read_ofFn, map_pure]

end PlacedRouting

/-! ## Sort keys -/

/-- Split sort keys with the relation sorted by known by number. -/
structure PlacedSorts where
  relationSorts : List (Nat × SortKey)
  rootSorts : List SortKey

def SortSplit.placed (s : SortSplit relations) : PlacedSorts where
  relationSorts := s.relationSorts.map fun p => (p.1.val, p.2)
  rootSorts := s.rootSorts

namespace PlacedSorts

/-- Splits the keys, given the place that an earlier key was tagged with. -/
def ofKeys (relations : List Relation) (earlier : Option Nat) :
    List SortKey → Unguarded PlacedSorts
  | [] => return ⟨[], []⟩
  | key :: rest =>
    match key.relation with
    | none =>
      (fun s => { s with rootSorts := key :: s.rootSorts }) <$> ofKeys relations earlier rest
    | some name =>
      match (Relation.places relations).get? name with
      | none => throw (.unknownRelation name)
      | some place => do
        let relation ← read relations place
        if relation.isMany && !relation.hasDistinctFilter then
          throw (.missingDistinctFilter relation.property key.field)
        else if earlier.any (· ≠ place) then do
          let first ← read relations (earlier.getD place)
          throw (.multipleSortRelations first.property relation.property)
        else
          (fun s => { s with relationSorts := (place, key.untagged) :: s.relationSorts }) <$>
            ofKeys relations (some place) rest

def driving? (s : PlacedSorts) : Option Nat := s.relationSorts.head?.map (·.1)

theorem driving?_placed (s : SortSplit relations) :
    s.placed.driving? = s.driving?.map Fin.val := by
  unfold driving? SortSplit.driving? SortSplit.placed
  cases s.relationSorts <;> rfl

theorem follows_ofKeys (keys : List SortKey) (earlier : Option (RelationId relations)) :
    Follows SortSplit.placed (ofKeys relations (earlier.map Fin.val) keys)
      (SortSplit.ofKeys relations earlier keys) := by
  induction keys generalizing earlier with
  | nil => exact follows_pure _
  | cons key rest ih =>
    unfold ofKeys SortSplit.ofKeys Scope.ofTag
    cases htag : key.relation with
    | none => exact (ih earlier).map fun _ => rfl
    | some name =>
      dsimp only
      rw [Relation.get?_places]
      cases Relation.resolve? relations name with
      | none => exact follows_throw _
      | some id =>
        dsimp only [Option.map_some]
        rw [read_get, pure_bind]
        split
        · exact follows_throw _
        · have hany : (earlier.map Fin.val).any (· ≠ id.val) = earlier.any (· ≠ id) := by
            cases earlier <;> simp [Fin.ext_iff]
          have hfirst : (earlier.map Fin.val).getD id.val = (earlier.getD id).val := by
            cases earlier <;> rfl
          rw [hany, hfirst, read_get, pure_bind]
          split
          · exact follows_throw _
          · exact (ih (some id)).map fun _ => rfl

end PlacedSorts

/-! ## Strategies and checks -/

/-- A strategy with relations by number: the driving one and the chain. -/
structure PlacedStrategy where
  driving? : Option Nat
  chain : List Nat

def Strategy.placed (s : Strategy relations) : PlacedStrategy :=
  ⟨s.driving?.map Fin.val, s.chain.map Fin.val⟩

namespace PlacedStrategy

def select (relations : List Relation) (sorts : PlacedSorts) (constrained : List Nat) :
    Unguarded PlacedStrategy :=
  match sorts.driving?.or constrained.head? with
  | none => return ⟨none, []⟩
  | some driving => do
    let narrowing ← keep (fun place =>
      if place = driving then return false
      else (fun relation => !relation.owner) <$> read relations place) constrained
    return ⟨some driving, driving :: narrowing⟩

theorem select_eq (routing : Routing relations) (sorts : SortSplit relations) :
    select relations sorts.placed (routing.constrained.map Fin.val) =
      pure (Strategy.select routing sorts).placed := by
  unfold select Strategy.select
  rw [PlacedSorts.driving?_placed, List.head?_map, ← Option.map_or]
  cases sorts.driving?.or routing.constrained.head? with
  | none => rfl
  | some driving =>
    have htest (id : RelationId relations) :
        (if id.val = driving.val then return false
          else (fun relation => !relation.owner) <$> read relations id.val : Unguarded Bool) =
        pure (id ≠ driving && !(relations.get id).owner) := by
      by_cases hid : id = driving
      · rw [if_pos (congrArg Fin.val hid), decide_eq_false (not_not.2 hid)]
        rfl
      · rw [if_neg fun h => hid (Fin.ext h), decide_eq_true hid, read_get, map_pure]
        rfl
    dsimp only [Option.map_some]
    rw [keep_map_val htest, pure_bind]
    rfl

end PlacedStrategy

/-- The first of the places whose relation has the fault, if any has it. -/
def checkPlaces (relations : List Relation) (fault : Relation → Bool)
    (failure : Relation → Failure) : List Nat → Unguarded Unit
  | [] => return ()
  | place :: rest => do
    let relation ← read relations place
    if fault relation then throw (failure relation) else checkPlaces relations fault failure rest

theorem follows_checkPlaces (fault : Relation → Bool) (failure : Relation → Failure)
    (ids : List (RelationId relations)) :
    Follows id (checkPlaces relations fault failure (ids.map Fin.val))
      (Plan.checkNone ids fault failure) := by
  induction ids with
  | nil => exact follows_pure ()
  | cons first rest ih =>
    unfold Plan.checkNone at ih ⊢
    rw [List.map_cons, checkPlaces, read_get, pure_bind, List.find?_cons]
    cases hfault : fault (relations.get first) with
    | true => exact follows_throw _
    | false => exact ih

/-! ## Hydrated relations -/

/-- Marks a place. -/
def mark : List Bool → Nat → Unguarded (List Bool) := update fun _ => true

def markNames (relations : List Relation) : List String → List Bool → Unguarded (List Bool)
  | [], marks => return marks
  | name :: rest, marks =>
    match (Relation.places relations).get? name with
    | none => throw (.unknownRelation name)
    | some place => mark marks place >>= markNames relations rest

def hydratedPlaces (relations : List Relation) (chain : List Nat) (r : Request) :
    Unguarded (List Nat) :=
  match r.relations with
  | [] => return List.range relations.length
  | names => do
    let listed ← markNames relations names (List.replicate relations.length false)
    let marks ← chain.foldlM mark listed
    keep (read marks) (List.range relations.length)

/-- The marks at these relations and at no others. -/
def marksOf (ids : List (RelationId relations)) : List Bool := List.ofFn fun id => ids.contains id

theorem mark_marksOf (ids : List (RelationId relations)) (id : RelationId relations) :
    mark (marksOf ids) id.val = pure (marksOf (ids ++ [id])) := by
  unfold mark marksOf
  rw [update_ofFn]
  congr 2
  funext other
  by_cases hid : id = other
  · simp [hid]
  · simp [hid, Ne.symm hid]

theorem follows_markNames (names : List String) (ids : List (RelationId relations)) :
    Follows (fun listed => marksOf (ids ++ listed)) (markNames relations names (marksOf ids))
      (match names.find? fun name => (Relation.resolve? relations name).isNone with
      | some name => .error (.unknownRelation name)
      | none => .ok (names.filterMap (Relation.resolve? relations))) := by
  induction names generalizing ids with
  | nil =>
    have hnil := follows_pure (g := fun listed => marksOf (ids ++ listed)) []
    rw [List.append_nil] at hnil
    exact hnil
  | cons name rest ih =>
    rw [markNames, Relation.get?_places, List.find?_cons]
    cases hresolved : Relation.resolve? relations name with
    | none => exact follows_throw _
    | some id =>
      -- the marks tell the relations named so far, to which this one is added
      dsimp only [Option.map_some, Option.isNone_some]
      rw [mark_marksOf, pure_bind, List.filterMap_cons_some hresolved]
      have hrest := ih (ids ++ [id])
      simp only [List.append_assoc, List.singleton_append] at hrest
      cases hfind : rest.find? fun name => (Relation.resolve? relations name).isNone with
      | none => rw [hfind] at hrest; exact hrest
      | some unknown => rw [hfind] at hrest; exact hrest

theorem follows_hydratedPlaces (strategy : Strategy relations) (r : Request) :
    Follows (List.map Fin.val) (hydratedPlaces relations (strategy.chain.map Fin.val) r)
      (Plan.hydratedRelations strategy r) := by
  unfold hydratedPlaces Plan.hydratedRelations
  cases hnames : r.relations with
  | nil =>
    dsimp only
    rw [← List.map_coe_finRange_eq_range]
    exact follows_pure _
  | cons name rest =>
    dsimp only
    have hempty :
        List.replicate relations.length false = marksOf ([] : List (RelationId relations)) := by
      rw [← List.ofFn_const]
      rfl
    have hlisted := follows_markNames (name :: rest) ([] : List (RelationId relations))
    rw [← hempty] at hlisted
    unfold Follows at hlisted
    rw [hlisted]
    cases (name :: rest).find? fun name => (Relation.resolve? relations name).isNone with
    | some unknown => exact follows_throw _
    | none =>
      dsimp only
      generalize (name :: rest).filterMap (Relation.resolve? relations) = listed
      have hchain : strategy.chain.foldlM (fun marks id => mark marks id.val)
          (marksOf (listed ++ [])) = pure (marksOf (listed ++ strategy.chain)) :=
        foldlM_eq_pure_of_concat (fun front => marksOf (listed ++ front))
          (fun front id => by rw [mark_marksOf, List.append_assoc]) strategy.chain
      rw [List.append_nil] at hchain
      have hkept : keep (read (marksOf (listed ++ strategy.chain))) (List.range relations.length) =
          pure (((List.finRange relations.length).filter
            (listed ++ strategy.chain).contains).map Fin.val) :=
        keep_range fun id => read_ofFn _ id
      show Follows _ ((strategy.chain.map Fin.val).foldlM mark (marksOf listed) >>= _) _
      rw [List.foldlM_map, hchain, pure_bind, hkept]
      exact follows_pure _

/-! ## Plans -/

structure PlacedPlan where
  routing : PlacedRouting
  sorts : PlacedSorts
  strategy : PlacedStrategy
  hydrated : List Nat
  limit : UInt64
  offset : UInt64

def Plan.placed (plan : Plan relations) : PlacedPlan :=
  ⟨plan.routing.placed, plan.sorts.placed, plan.strategy.placed, plan.hydrated.map Fin.val,
    plan.limit, plan.offset⟩

namespace PlacedPlan

def checkTags (routing : PlacedRouting) : Unguarded Unit :=
  match routing.unresolved with
  | [] => return ()
  | name :: _ => throw (.unknownRelation name)

def checkRootOr (routing : PlacedRouting) : Unguarded Unit :=
  if routing.rootOrFilters.isEmpty then return () else throw .unsupportedRootOr

def checkChain (relations : List Relation) (strategy : PlacedStrategy) : Unguarded Unit :=
  match strategy.driving? with
  | none => return ()
  | some driving => do
    let first ← read relations driving
    checkPlaces relations (·.rootKeyField ≠ first.rootKeyField)
      (fun x => .mismatchedJoinKey x.property first.rootKeyField x.rootKeyField) strategy.chain

def make (relations : List Relation) (limits : Limits) (r : Request) : Unguarded PlacedPlan := do
  ofResult (Plan.checkSearch r)
  ofResult (Plan.checkOperands (r.filters ++ r.orFilters))
  let routing ← PlacedRouting.ofRequest relations r
  checkTags routing
  checkRootOr routing
  let sorts ← PlacedSorts.ofKeys relations none r.sorts
  let constrained ← routing.constrained
  checkPlaces relations (·.owner) (fun x => .ownerRelationConstraint x.property)
    (constrained ++ sorts.driving?.toList)
  checkPlaces relations (fun x => x.isMany && !x.hasDistinctFilter)
    (fun x => .missingDistinctFilter x.property x.foreignKey) routing.existence
  let strategy ← PlacedStrategy.select relations sorts constrained
  checkChain relations strategy
  let hydrated ← hydratedPlaces relations strategy.chain r
  let limit := Page.atLeastOne (r.limit.getD limits.defaultLimit)
  return ⟨routing, sorts, strategy, hydrated, limit, r.offsetFor limit⟩

theorem follows_checkTags (routing : Routing relations) :
    Follows id (checkTags routing.placed) (Plan.checkTags routing) := by
  unfold checkTags Plan.checkTags Routing.placed
  cases routing.unresolved <;> rfl

theorem follows_checkRootOr (routing : Routing relations) :
    Follows id (checkRootOr routing.placed) (Plan.checkRootOr routing) := by
  unfold checkRootOr Plan.checkRootOr Routing.placed
  cases routing.rootOrFilters <;> rfl

theorem follows_checkChain (strategy : Strategy relations) :
    Follows id (checkChain relations strategy.placed) (Plan.checkChain strategy) := by
  unfold checkChain Plan.checkChain Strategy.placed
  cases strategy.driving? with
  | none => exact follows_pure ()
  | some driving =>
    dsimp only [Option.map_some]
    rw [read_get, pure_bind]
    exact follows_checkPlaces _ _ _

/-- Planning by number follows planning, for every request and whatever is declared. -/
theorem follows_make (limits : Limits) (r : Request) :
    Follows Plan.placed (make relations limits r) (Plan.make relations limits r) := by
  unfold make Plan.make
  refine (follows_ofResult _).bind fun _ => ?_
  refine (follows_ofResult _).bind fun _ => ?_
  rw [PlacedRouting.ofRequest_eq, pure_bind]
  refine (follows_checkTags _).bind fun _ => ?_
  refine (follows_checkRootOr _).bind fun _ => ?_
  refine (PlacedSorts.follows_ofKeys r.sorts none).bind fun sorts => ?_
  rw [PlacedRouting.constrained_eq, pure_bind, PlacedSorts.driving?_placed]
  have howners := follows_checkPlaces (·.owner) (fun x => .ownerRelationConstraint x.property)
    ((Routing.ofRequest relations r).constrained ++ sorts.driving?.toList)
  rw [List.map_append, ← Option.toList_map] at howners
  refine howners.bind fun _ => ?_
  refine (follows_checkPlaces _ _ (Routing.ofRequest relations r).existence).bind fun _ => ?_
  rw [PlacedStrategy.select_eq, pure_bind]
  refine (follows_checkChain _).bind fun _ => ?_
  exact (follows_hydratedPlaces _ r).bind fun hydrated => follows_pure _

end PlacedPlan

end FederatedJoin
