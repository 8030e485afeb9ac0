-- SUMMARY: Asking a relation for a record once more changes nothing, and its check is there once.
import FederatedJoin.Proofs.Routes

/-!
# Existence checks

A routed request may ask relations for a record any number of times, in any
order. What the first call to a relation has done no later call undoes or does
again: an asked relation stays as it is from then on, so the calls that count
are the first ones. Not even two owner relations that share a foreign key leave
two checks for it; only the request itself can ask for the same key repeatedly.
-/

namespace FederatedJoin

/-- The condition is a check for the key. Its operand does not count. -/
def Condition.Checks (c : Condition) (key : String) : Prop :=
  c.field = key ∧ c.operator = .notNull

instance (c : Condition) (key : String) : Decidable (c.Checks key) :=
  inferInstanceAs (Decidable (_ ∧ _))

namespace Routing

variable {relations : List Relation} {r : Request} {routing : Routing relations}
  {id : RelationId relations}

/-- The routing of the request after these relations were asked for a record as well. -/
def ofCalls (r : Request) (calls : List (RelationId relations)) : Routing relations :=
  calls.foldl ensureExistence (ofRequest relations r)

/-- How many checks for the key the request itself has in one place. -/
def supplied (r : Request) (scope : Scope relations) (key : String) : Nat :=
  r.filters.countP fun c => Scope.ofTag relations c.relation = scope ∧ c.Checks key

/-- What a routing of the request holds of a relation that was asked for a record. -/
structure Ensures (routing : Routing relations) (r : Request) (id : RelationId relations) :
    Prop where
  filters : (relations.get id).owner = false →
    (routing.sets.get id).filters.countP (·.Checks (relations.get id).foreignKey) =
      max 1 (supplied r (.relation id) (relations.get id).foreignKey)
  distinct : (relations.get id).owner = false →
    (routing.sets.get id).distinct = (relations.get id).distinctFilter
  listed : (relations.get id).owner = false → routing.existence.count id = 1
  rootFilters : (relations.get id).owner = true →
    routing.rootFilters.countP (·.Checks (relations.get id).foreignKey) =
      max 1 (supplied r (.root : Scope relations) (relations.get id).foreignKey)
  unlisted : (relations.get id).owner = true → id ∉ routing.existence

/-! ## Adding a check twice -/

theorem addCheck_eq_self_iff {check : Condition} {conditions : List Condition} :
    addCheck check conditions = conditions ↔ conditions.any (·.sameCheck check) = true := by
  unfold addCheck
  split
  · next h => exact iff_of_true rfl h
  · next h => exact iff_of_false (fun h' => by simp at h') h

/-- A check that is there stays there, whatever is added. -/
theorem addCheck_addCheck_of_self {check : Condition} {conditions : List Condition}
    (h : addCheck check conditions = conditions) (other : Condition) :
    addCheck check (addCheck other conditions) = addCheck other conditions := by
  rw [addCheck_eq_self_iff, List.any_eq_true] at h ⊢
  obtain ⟨c, hc, hsame⟩ := h
  exact ⟨c, subset_addCheck other conditions hc, hsame⟩

theorem addCheck_existenceCheck_self (relation : Relation) (conditions : List Condition) :
    addCheck (existenceCheck relation) (addCheck (existenceCheck relation) conditions) =
      addCheck (existenceCheck relation) conditions :=
  addCheck_eq_self_iff.2 (List.any_eq_true.2 (exists_sameCheck_addCheck relation conditions))

theorem checkedSet_self (relation : Relation) (set : FilterSet) :
    checkedSet relation (checkedSet relation set) = checkedSet relation set := by
  unfold checkedSet
  simp only [addCheck_existenceCheck_self]
  cases hset : set.distinct.isEmpty <;> simp [hset]

/-! ## Asking a relation twice -/

/-- Nothing is missing of what the relation was asked for. -/
structure Settled (routing : Routing relations) (id : RelationId relations) : Prop where
  root : (relations.get id).owner = true →
    addCheck (existenceCheck (relations.get id)) routing.rootFilters = routing.rootFilters
  set : (relations.get id).owner = false →
    checkedSet (relations.get id) (routing.sets.get id) = routing.sets.get id
  listed : (relations.get id).owner = false → id ∈ routing.existence

theorem ensureExistence_of_forward (howner : (relations.get id).owner = false)
    (routing : Routing relations) : routing.ensureExistence id =
      { routing with
        sets := routing.sets.set id.val
          (checkedSet (relations.get id) (routing.sets.get id)) id.isLt
        existence := if id ∈ routing.existence then routing.existence
          else routing.existence ++ [id] } := by
  simp only [ensureExistence, howner, Bool.false_eq_true, if_false]
  rfl

theorem mem_existence_ensureExistence (routing : Routing relations)
    (id other : RelationId relations) : id ∈ (routing.ensureExistence other).existence ↔
      id ∈ routing.existence ∨ id = other ∧ (relations.get other).owner = false := by
  cases howner : (relations.get other).owner with
  | true => simp [ensureExistence_of_owner howner]
  | false =>
    rw [ensureExistence_of_forward howner]
    dsimp only
    split
    · next hmem => exact ⟨.inl, fun h => h.elim (fun hid => hid) fun hid => hid.1 ▸ hmem⟩
    · simp

theorem Settled.ensureExistence_eq (h : Settled routing id) :
    routing.ensureExistence id = routing := by
  cases howner : (relations.get id).owner with
  | true => rw [ensureExistence_of_owner howner, h.root howner]
  | false =>
    rw [ensureExistence_of_forward howner, h.set howner, if_pos (h.listed howner)]
    have hsets : routing.sets.set id.val (routing.sets.get id) id.isLt = routing.sets :=
      Vector.set_getElem_self ..
    rw [hsets]

theorem settled_ensureExistence (routing : Routing relations) (id : RelationId relations) :
    Settled (routing.ensureExistence id) id where
  root howner := by
    rw [ensureExistence_of_owner howner]
    exact addCheck_existenceCheck_self ..
  set howner := by
    rw [get_sets_ensureExistence, if_pos ⟨rfl, howner⟩, checkedSet_self]
  listed howner := (mem_existence_ensureExistence ..).2 (.inr ⟨rfl, howner⟩)

/-- No call to another relation takes away what the relation was asked for. -/
theorem Settled.ensureExistence (h : Settled routing id) (other : RelationId relations) :
    Settled (routing.ensureExistence other) id where
  root howner := by
    cases hother : (relations.get other).owner with
    | true =>
      rw [ensureExistence_of_owner hother]
      exact addCheck_addCheck_of_self (h.root howner) _
    | false =>
      rw [rootFilters_ensureExistence_of_forward hother]
      exact h.root howner
  set howner := by
    rw [get_sets_ensureExistence]
    split
    · exact checkedSet_self ..
    · exact h.set howner
  listed howner := (mem_existence_ensureExistence ..).2 (.inl (h.listed howner))

theorem Settled.foldl (h : Settled routing id) (calls : List (RelationId relations)) :
    Settled (calls.foldl Routing.ensureExistence routing) id := by
  induction calls generalizing routing with
  | nil => exact h
  | cons first rest ih => exact ih (h.ensureExistence first)

theorem settled_foldl_of_mem {calls : List (RelationId relations)} (hid : id ∈ calls)
    (routing : Routing relations) : Settled (calls.foldl Routing.ensureExistence routing) id := by
  induction calls generalizing routing with
  | nil => cases hid
  | cons first rest ih =>
    rcases List.mem_cons.1 hid with rfl | hrest
    · exact (settled_ensureExistence routing id).foldl rest
    · exact ih hrest (routing.ensureExistence first)

/-- A call to a settled relation may as well be left out, wherever it stands. -/
theorem foldl_filter_of_settled (h : Settled routing id) (calls : List (RelationId relations)) :
    (calls.filter fun other => !other == id).foldl Routing.ensureExistence routing =
      calls.foldl Routing.ensureExistence routing := by
  induction calls generalizing routing with
  | nil => rfl
  | cons first rest ih =>
    by_cases hid : first = id
    · subst hid
      rw [List.filter_cons_of_neg (by simp), List.foldl_cons, h.ensureExistence_eq, ih h]
    · rw [List.filter_cons_of_pos (by simpa using hid), List.foldl_cons, List.foldl_cons,
        ih (h.ensureExistence first)]

/-- Of the calls to one relation only the first counts. -/
theorem foldl_eraseDups (calls : List (RelationId relations)) (routing : Routing relations) :
    calls.eraseDups.foldl Routing.ensureExistence routing =
      calls.foldl Routing.ensureExistence routing := by
  match calls with
  | [] => rfl
  | first :: rest =>
    rw [List.eraseDups_cons, List.foldl_cons, List.foldl_cons, foldl_eraseDups,
      foldl_filter_of_settled (settled_ensureExistence routing first)]
termination_by calls.length
decreasing_by exact Nat.lt_succ_of_le (List.length_filter_le ..)

/-! ## Counting checks -/

theorem sameCheck_notNull (c : Condition) (key : String) :
    c.sameCheck (.notNull key) = decide (c.Checks key) := by
  rw [Bool.eq_iff_iff, decide_eq_true_iff]
  simp only [Condition.sameCheck, Condition.notNull, Condition.Checks, Bool.and_eq_true,
    beq_iff_eq, Bool.or_eq_true]
  exact and_iff_left_of_imp fun h => .inl h.2

theorem countP_addCheck (key : String) (conditions : List Condition) :
    (addCheck (.notNull key) conditions).countP (·.Checks key) =
      max 1 (conditions.countP (·.Checks key)) := by
  have hcount : conditions.any (·.sameCheck (.notNull key)) = true ↔
      0 < conditions.countP (·.Checks key) := by
    simp only [List.any_eq_true, List.countP_pos_iff, sameCheck_notNull]
  have hcheck : (Condition.notNull key).Checks key := ⟨rfl, rfl⟩
  unfold addCheck
  split
  · next hany => exact (Nat.max_eq_right (hcount.1 hany)).symm
  · next hnone =>
    have hzero : conditions.countP (·.Checks key) = 0 :=
      Nat.eq_zero_of_not_pos (mt hcount.2 hnone)
    rw [List.countP_append, hzero, List.countP_singleton, if_pos (decide_eq_true hcheck)]
    rfl

theorem countP_addCheck_of_ne {key other : String} (h : other ≠ key)
    (conditions : List Condition) : (addCheck (.notNull other) conditions).countP (·.Checks key) =
      conditions.countP (·.Checks key) := by
  have hcheck : ¬ (Condition.notNull other).Checks key := fun hother => h hother.1
  unfold addCheck
  split
  · rfl
  · rw [List.countP_append, List.countP_singleton, if_neg (by simpa using hcheck), Nat.add_zero]

/-- However often a key is among those that are checked for, its check is added once. -/
theorem countP_foldl_addCheck (key : String) (keys : List String) (conditions : List Condition) :
    (keys.foldl (fun cs other => addCheck (.notNull other) cs) conditions).countP (·.Checks key) =
      if key ∈ keys then max 1 (conditions.countP (·.Checks key))
      else conditions.countP (·.Checks key) := by
  induction keys generalizing conditions with
  | nil => simp
  | cons first rest ih =>
    rw [List.foldl_cons, ih]
    by_cases hfirst : first = key
    · subst hfirst
      simp only [countP_addCheck, List.mem_cons_self, if_true]
      split <;> omega
    · simp [countP_addCheck_of_ne hfirst, Ne.symm hfirst]

/-! ## What the request supplies -/

theorem ofTag_eq_root_iff {tag : Option String} :
    Scope.ofTag relations tag = .root ↔ tag = none := by
  cases tag with
  | none => exact iff_of_true rfl rfl
  | some name =>
    refine iff_of_false ?_ nofun
    cases hresolved : Relation.resolve? relations name <;> simp [Scope.ofTag, hresolved]

theorem countP_conditionsOf (r : Request) (id : RelationId relations) (key : String) :
    (conditionsOf id r.filters).countP (·.Checks key) = supplied r (.relation id) key := by
  rw [conditionsOf, List.countP_map, List.countP_filter]
  apply List.countP_congr
  intro c _
  simp only [Function.comp_apply, Bool.and_eq_true, decide_eq_true_eq]
  exact and_comm

theorem countP_untagged (relations : List Relation) (r : Request) (key : String) :
    (r.filters.filter (·.relation.isNone)).countP (·.Checks key) =
      supplied r (.root : Scope relations) key := by
  rw [List.countP_filter]
  apply List.countP_congr
  intro c _
  simp only [Bool.and_eq_true, decide_eq_true_eq, Option.isNone_iff_eq_none, ofTag_eq_root_iff]
  exact and_comm

/-! ## After any calls -/

/-- Routing itself makes the first calls. -/
theorem ofCalls_eq (r : Request) (calls : List (RelationId relations)) : ofCalls r calls =
    ((List.finRange relations.length).filter (isAsked r) ++ calls).foldl ensureExistence
      (distribute relations r) := List.foldl_append.symm

theorem get_sets_foldl_of_mem {calls : List (RelationId relations)} (hid : id ∈ calls)
    (howner : (relations.get id).owner = false) (routing : Routing relations) :
    (calls.foldl ensureExistence routing).sets.get id =
      checkedSet (relations.get id) (routing.sets.get id) := by
  have hfirst : calls.eraseDups.contains id = true :=
    List.contains_iff_mem.2 (List.mem_eraseDups.2 hid)
  rw [← foldl_eraseDups, get_sets_foldl_ensureExistence (FirstOccurrence.nodup_eraseDups calls),
    if_pos ⟨hfirst, howner⟩]

theorem existence_foldl_distribute (r : Request) (calls : List (RelationId relations)) :
    (calls.foldl ensureExistence (distribute relations r)).existence =
      calls.eraseDups.filter fun id => !(relations.get id).owner := by
  rw [← foldl_eraseDups]
  exact Requirement.existence_foldl_ensureExistence (FirstOccurrence.nodup_eraseDups calls) _
    fun _ _ h => nomatch h

theorem ensures_foldl_of_mem {calls : List (RelationId relations)} (hid : id ∈ calls)
    (r : Request) : Ensures (calls.foldl ensureExistence (distribute relations r)) r id := by
  have hset : (distribute relations r).sets.get id =
      ⟨conditionsOf id r.filters, conditionsOf id r.orFilters, []⟩ := Vector.getElem_ofFn ..
  exact {
    filters := fun howner => by
      rw [get_sets_foldl_of_mem hid howner, hset, ← countP_conditionsOf]
      exact countP_addCheck ..
    distinct := fun howner => by
      rw [get_sets_foldl_of_mem hid howner, hset]
      rfl
    listed := fun howner => by
      rw [existence_foldl_distribute]
      apply List.count_eq_one_of_mem ((FirstOccurrence.nodup_eraseDups calls).filter _)
      exact List.mem_filter.2 ⟨List.mem_eraseDups.2 hid, by rw [howner]; rfl⟩
    rootFilters := fun howner => by
      have howned : id ∈ calls.filter fun other => (relations.get other).owner :=
        List.mem_filter.2 ⟨hid, howner⟩
      rw [rootFilters_foldl_ensureExistence, countP_foldl_addCheck,
        if_pos (List.mem_map_of_mem howned), ← countP_untagged]
      rfl
    unlisted := fun howner hmem => by
      rw [existence_foldl_distribute] at hmem
      have hforward := (List.mem_filter.1 hmem).2
      rw [howner] at hforward
      cases hforward }

/-- Calls that repeat an earlier one change nothing, nor do calls to relations that routing has
asked already; and every relation that was asked has its check exactly once, or as often as the
request has it. -/
theorem ofCalls_asksOnce (r : Request) (calls : List (RelationId relations)) :
    ofCalls r calls = ofCalls r calls.eraseDups ∧
    (∀ id, (relations.get id).isInner = true ∨ sortsBy r id = true →
      (ofCalls r calls).ensureExistence id = ofCalls r calls) ∧
    ∀ id, id ∈ calls ∨ (relations.get id).isInner = true ∨ sortsBy r id = true →
      (ofCalls r calls).Ensures r id := by
  have hasked : ∀ id, (relations.get id).isInner = true ∨ sortsBy r id = true →
      id ∈ (List.finRange relations.length).filter (isAsked r) := fun id h =>
    List.mem_filter.2 ⟨List.mem_finRange id, Bool.or_eq_true_iff.2 h⟩
  refine ⟨(foldl_eraseDups calls _).symm, fun id h => ?_, fun id h => ?_⟩
  · rw [ofCalls_eq]
    apply (settled_foldl_of_mem _ _).ensureExistence_eq
    exact List.mem_append_left _ (hasked id h)
  · rw [ofCalls_eq]
    apply ensures_foldl_of_mem
    rcases h with hcall | h
    · exact List.mem_append_right _ hcall
    · exact List.mem_append_left _ (hasked id h)

end Routing

namespace Shop

/-- The order that a customer has to have, and two relations that share the root's key. -/
def gradedRelations : List Relation :=
  [anOrder.withJoin .inner, .belongsTo "tier" "tiers" "id" "rank",
    .belongsTo "grade" "grades" "id" "rank"]

/-- The request asks for the order's key twice itself. -/
def keyedTwice : Request :=
  { Request.empty with
    filters := [⟨"customer", .notNull, .null, some "order"⟩, ⟨"id", .notNull, .null, none⟩,
      ⟨"customer", .notNull, .int 1, some "order"⟩] }

def gradeId : RelationId gradedRelations := ⟨2, by decide⟩

def tierId : RelationId gradedRelations := ⟨1, by decide⟩

def theOrderId : RelationId gradedRelations := ⟨0, by decide⟩

theorem ofCalls_keyedTwice :
    let routing := Routing.ofCalls keyedTwice [gradeId, tierId, gradeId, theOrderId]
    routing = Routing.ofCalls keyedTwice [gradeId, tierId, theOrderId] ∧
    routing.rootFilters.countP (·.Checks "rank") = 1 ∧
    (routing.sets.get theOrderId).filters.countP (·.Checks "customer") = 2 := by
  obtain ⟨hrepeat, -, hensures⟩ :=
    Routing.ofCalls_asksOnce keyedTwice [gradeId, tierId, gradeId, theOrderId]
  have htier := hensures tierId (.inl (by decide))
  have horder := hensures theOrderId (.inr (.inl rfl))
  exact ⟨hrepeat, htier.rootFilters rfl, horder.filters rfl⟩

end Shop

end FederatedJoin
