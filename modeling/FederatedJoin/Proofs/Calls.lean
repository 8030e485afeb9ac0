-- SUMMARY: The calls that each part of an execution makes, and what is called before and after hydration.
import FederatedJoin.Execution
import FederatedJoin.Proofs.FirstOccurrence
import FederatedJoin.Proofs.Plans
import FederatedJoin.Proofs.Traces

/-!
# Calls

Discovery asks the driving relation for windows and the relations that narrow its
keys for the rows of those; the root is asked for the roots of keys, or for one
root to learn their total. All this is done before the first relation is attached:
an execution is what leads to the roots of the page, followed by one request for
each relation that has to be attached to them.
-/

namespace FederatedJoin

variable {relations : List Relation} {b : Backend relations} {t : List (Call relations)}

/-- A request about some keys to one of the relations. -/
inductive Call.Asks (request : RelationId relations → Request) (ids : List (RelationId relations)) :
    Call relations → Prop where
  | keys (id : RelationId relations) (keys : List JoinKey) (hid : id ∈ ids) (hkeys : keys ≠ []) :
    Asks request ids ⟨.relation id, .getMany,
      (request id).constrainKeys (relations.get id).relationKeyField keys⟩

theorem Call.Asks.mono {request : RelationId relations → Request}
    {some all : List (RelationId relations)} (h : ∀ id ∈ some, id ∈ all) {c : Call relations}
    (hc : c.Asks request some) : c.Asks request all := by
  cases hc with
  | keys id keys hid hkeys => exact .keys id keys (h id hid) hkeys

theorem Call.Asks.source_ne_root {request : RelationId relations → Request}
    {ids : List (RelationId relations)} {c : Call relations} (hc : c.Asks request ids) :
    c.source ≠ .root := by
  cases hc with
  | keys => exact nofun

namespace Discovery

theorem sends_narrow (routing : Routing relations) (chain : List (RelationId relations))
    (keys : List JoinKey) :
    Fetch.Sends b (·.Asks routing.discoveryRequest chain) (narrow routing chain keys) := by
  induction chain generalizing keys with
  | nil => exact Fetch.sends_pure keys
  | cons id rest ih =>
    unfold narrow
    split
    · exact Fetch.sends_pure []
    · next hkeys =>
      have hne : keys ≠ [] := fun h => hkeys (List.isEmpty_iff.2 h)
      refine (Fetch.sends_getMany (.keys id keys List.mem_cons_self hne)).bind fun page => ?_
      exact (ih _).mono fun _ => Call.Asks.mono fun _ => List.mem_cons_of_mem id

/-- The call for the window that the cursor is at. -/
def windowCall (plan : Plan relations) (driving : RelationId relations) (d : Discovery) :
    Call relations :=
  ⟨.relation driving, .getMany, windowRequest plan driving d.cursor.window⟩

theorem readWindow_wp (plan : Plan relations) (driving : RelationId relations)
    (narrowing : List (RelationId relations)) (d : Discovery) :
    (d.readWindow plan driving narrowing).wp b t fun res t' =>
      ∃ calls, t' = t ++ d.windowCall plan driving :: calls ∧
        (∀ c ∈ calls, c.Asks plan.routing.discoveryRequest narrowing) ∧
        ∀ d', res = .ok d' → d'.cursor = d.cursor.advance ∧
          ∃ page, b.getMany t (.relation driving) (windowRequest plan driving d.cursor.window) =
            .ok page ∧ d'.exhausted = decide (page.data.length < d.cursor.size.toNat) := by
  refine Fetch.wp_getMany_bind (fun page hpage => ?_) fun e _ => ?_
  · refine Fetch.wp_bind (sends_narrow plan.routing narrowing _ _) ?_ ?_
    · rintro keys _ ⟨⟨calls, rfl, hcalls⟩, -⟩
      refine Fetch.wp_pure ⟨calls, by simp [windowCall], hcalls, fun d' h => ?_⟩
      cases h
      exact ⟨rfl, page, hpage, rfl⟩
    · rintro e _ ⟨⟨calls, rfl, hcalls⟩, -⟩
      exact ⟨calls, by simp [windowCall], hcalls, fun _ h => nomatch h⟩
  · exact ⟨[], rfl, (fun _ h => nomatch h), fun _ h => nomatch h⟩

end Discovery

namespace Execution

variable (plan : Plan relations) (driving : RelationId relations)

/-- The request for the roots of some keys. -/
def fetchRequest (keys : List JoinKey) : Request :=
  (rootRequest plan).constrainKeys (rootKeyField driving) keys

theorem sends_settle {C : Call relations → Prop}
    (h : ∀ keys, keys ≠ [] → C ⟨.root, .getMany, fetchRequest plan driving keys⟩) (g : Gathering) :
    Fetch.Sends b C (settle plan driving g) := by
  unfold settle
  split
  · exact Fetch.sends_pure g
  · next hpending =>
    refine (Fetch.sends_getMany (h _ ?_)).bind fun page => Fetch.sends_pure _
    exact fun h => hpending h

theorem sends_rootTotal {C : Call relations → Prop}
    (h : C ⟨.root, .getMany, { plan.routing.rootRequest with limit := some 1 }⟩) :
    Fetch.Sends b C (rootTotal plan) := by
  unfold rootTotal
  split
  · exact (Fetch.sends_getMany h).bind fun page => Fetch.sends_pure _
  · exact Fetch.sends_pure _

end Execution

/-! ## Calls of hydration -/

namespace Hydration

def Task.call (task : Task relations) : Call relations :=
  ⟨.relation task.id, .getMany, task.request⟩

/-- An empty value is no join key. -/
theorem joinKey?_of_set_emptyValue {relation : Relation} {root : Record} {field : String}
    {key : JoinKey}
    (h : (root.set relation.property relation.emptyValue).joinKey? field = some key) :
    root.joinKey? field = some key := by
  by_cases hfield : relation.property = field
  · subst hfield
    rw [Record.joinKey?, Record.get?_set_self] at h
    unfold Relation.emptyValue at h
    split at h <;> cases h
  · rwa [Record.joinKey?_set_of_ne hfield] at h

/-- A task asks for the keys of roots, and only if there are any. -/
theorem exists_keys_of_mem_prepare {routing : Routing relations}
    {ids : List (RelationId relations)} {roots : List Record} {task : Task relations}
    (h : task ∈ (prepare routing ids roots).2) :
    task.call.Asks routing.hydrationRequest ids ∧
      ∃ root ∈ roots, root.joinKey? (relations.get task.id).rootKeyField ≠ none := by
  induction ids generalizing roots with
  | nil => cases h
  | cons id rest ih =>
    have hmore {c : Call relations} (hc : c.Asks routing.hydrationRequest rest) :
        c.Asks routing.hydrationRequest (id :: rest) :=
      hc.mono fun _ => List.mem_cons_of_mem id
    cases hkeys : Record.joinKeys roots (relations.get id).rootKeyField with
    | nil =>
      simp only [prepare, hkeys] at h
      obtain ⟨hasks, root, hroot, hkey⟩ := ih h
      obtain ⟨root', hroot', rfl⟩ := List.mem_map.1 hroot
      obtain ⟨key, hkey⟩ := Option.ne_none_iff_exists'.1 hkey
      exact ⟨hmore hasks, root', hroot', by rw [joinKey?_of_set_emptyValue hkey]; simp⟩
    | cons key keys =>
      simp only [prepare, hkeys] at h
      rcases List.mem_cons.1 h with rfl | h
      · refine ⟨.keys id (key :: keys) List.mem_cons_self (List.cons_ne_nil key keys), ?_⟩
        have hmem : key ∈ Record.joinKeys roots (relations.get id).rootKeyField :=
          hkeys ▸ List.mem_cons_self
        obtain ⟨root, hroot, hkey⟩ := Record.mem_joinKeys.1 hmem
        exact ⟨root, hroot, by rw [hkey]; simp⟩
      · obtain ⟨hasks, hroot⟩ := ih h
        exact ⟨hmore hasks, hroot⟩

theorem map_id_prepare_sublist (routing : Routing relations) (ids : List (RelationId relations))
    (roots : List Record) : ((prepare routing ids roots).2.map (·.id)).Sublist ids := by
  induction ids generalizing roots with
  | nil => exact List.Sublist.refl _
  | cons id rest ih =>
    cases hkeys : Record.joinKeys roots (relations.get id).rootKeyField with
    | nil =>
      simp only [prepare, hkeys]
      exact (ih _).cons id
    | cons key keys =>
      simp only [prepare, hkeys]
      exact (ih roots).cons_cons id

/-- The tasks are done in order, up to the first that fails. -/
theorem fetchAll_wp (tasks : List (Task relations)) : (fetchAll tasks).wp b t fun res t' =>
    (∃ n, t' = t ++ (tasks.take n).map (·.call)) ∧
      ∀ fetched, res = .ok fetched → fetched.map (·.1) = tasks.map (·.id) := by
  induction tasks generalizing t with
  | nil => exact Fetch.wp_pure ⟨⟨0, (List.append_nil t).symm⟩, fun _ h => by cases h; rfl⟩
  | cons task rest ih =>
    refine Fetch.wp_getMany_bind (fun page _ => ?_) fun e _ => ?_
    · refine Fetch.wp_bind ih ?_ ?_
      · rintro more _ ⟨⟨n, rfl⟩, hmore⟩
        refine Fetch.wp_pure ⟨⟨n + 1, by simp [Task.call]⟩, fun fetched h => ?_⟩
        cases h
        simp [hmore more rfl]
      · rintro e _ ⟨⟨n, rfl⟩, -⟩
        exact ⟨⟨n + 1, by simp [Task.call]⟩, fun fetched h => nomatch h⟩
    · exact ⟨⟨1, by simp [Task.call]⟩, fun fetched h => nomatch h⟩

theorem sends_fetchAll {C : Call relations → Prop} {tasks : List (Task relations)}
    (h : ∀ task ∈ tasks, C task.call) : Fetch.Sends b C (fetchAll tasks) := by
  induction tasks with
  | nil => exact Fetch.sends_pure []
  | cons task rest ih =>
    obtain ⟨htask, hrest⟩ := List.forall_mem_cons.1 h
    exact (Fetch.sends_getMany htask).bind fun _ => (ih hrest).bind fun _ => Fetch.sends_pure _

theorem sends_hydrate {C : Call relations → Prop} (plan : Plan relations)
    (h : ∀ c : Call relations, c.Asks plan.routing.hydrationRequest plan.hydrated → C c)
    (roots : List Record) : Fetch.Sends b C (hydrate plan roots) := by
  refine Fetch.Sends.bind (sends_fetchAll fun task htask => ?_) fun _ => Fetch.sends_pure _
  exact h _ (exists_keys_of_mem_prepare htask).1

end Hydration

/-! ## Before and after hydration -/

namespace Execution

variable (plan : Plan relations) (limits : Limits) (driving : RelationId relations)
  (narrowing : List (RelationId relations))

/-- The roots of a page ordered by the root, and their total. -/
def orderedRoots (d : Discovery) : Fetch relations (List Record × UInt64) :=
  if d.keys.isEmpty then pure ([], 0)
  else do
    let page ← Fetch.getMany .root (windowed plan (fetchRequest plan driving d.keys))
    let total ←
      if d.exhausted then pure page.total
      else do
        let bound ← rootTotal plan
        pure (max (min bound d.total) page.total)
    return (page.data, total)

/-- The roots of a page ordered by the driving relation, and their total. -/
def gatheredRoots (g : Gathering) : Fetch relations (List Record × UInt64) :=
  if g.discovery.keys.isEmpty then pure ([], 0)
  else do
    let window := ((ordered plan g).drop plan.offset.toNat).take plan.limit.toNat
    let bound ← rootTotal plan
    return (window, min bound g.discovery.total)

/-- The roots that discovery leads to. -/
def discoveredRoots : Fetch relations (List Record × UInt64) :=
  let start := Discovery.start plan.limit limits.maxOffset
  if plan.isRootOrdered then
    start.readAll plan driving narrowing start.cursor.windowsLeft >>= orderedRoots plan driving
  else
    gather plan driving narrowing (target plan)
      (windowBudget limits (target plan) start.cursor) (target plan) ⟨start, [], 0⟩ >>=
        gatheredRoots plan

/-- The roots of the page as the root's provider returned them, and their total. -/
def unattached : Fetch relations (List Record × UInt64) :=
  match plan.strategy with
  | .rootFirst => do
    let page ← Fetch.getMany .root (windowed plan (rootRequest plan))
    return (page.data, page.total)
  | .relationFirst driving narrowing => discoveredRoots plan limits driving narrowing

/-- Attaches the relations to the roots. -/
def finish (found : List Record × UInt64) : Fetch relations Page := do
  let roots ← Hydration.hydrate plan found.1
  return pageOf plan roots found.2

variable {plan limits driving narrowing}

theorem hydrate_nil : Hydration.hydrate plan [] = pure [] := by
  have hprepare : ∀ ids, Hydration.prepare plan.routing ids [] = ([], []) := by
    intro ids
    induction ids with
    | nil => rfl
    | cons id rest ih => exact ih
  unfold Hydration.hydrate
  rw [hprepare]
  rfl

theorem finish_nil : finish plan ([], 0) = pure (emptyPage plan) := by
  rw [finish, hydrate_nil]
  rfl

theorem rootOrdered_eq (d : Discovery) :
    rootOrdered plan driving d = orderedRoots plan driving d >>= finish plan := by
  unfold rootOrdered orderedRoots
  split
  · exact finish_nil.symm
  · rw [bind_assoc]
    refine bind_congr fun page => ?_
    split
    · rfl
    · simp only [bind_assoc, pure_bind]
      rfl

theorem relationFirst_eq : relationFirst plan limits driving narrowing =
    discoveredRoots plan limits driving narrowing >>= finish plan := by
  have hgathered (g : Gathering) : gatheredRoots plan g >>= finish plan =
      if g.discovery.keys.isEmpty then pure (emptyPage plan)
      else do
        let window := ((ordered plan g).drop plan.offset.toNat).take plan.limit.toNat
        let bound ← rootTotal plan
        let roots ← Hydration.hydrate plan window
        return pageOf plan roots (min bound g.discovery.total) := by
    unfold gatheredRoots
    split
    · exact finish_nil
    · simp only [bind_assoc, pure_bind]
      rfl
  unfold relationFirst discoveredRoots Plan.isRootOrdered
  split
  · rw [bind_assoc]
    exact bind_congr rootOrdered_eq
  · rw [bind_assoc]
    exact bind_congr fun g => (hgathered g).symm

/-- Every request that is sent when keys are discovered. What asks for keys asks for some. -/
inductive Sent (plan : Plan relations) (driving : RelationId relations)
    (narrowing : List (RelationId relations)) : Call relations → Prop where
  | window (w : Window) :
    Sent plan driving narrowing
      ⟨.relation driving, .getMany, Discovery.windowRequest plan driving w⟩
  | narrow {c : Call relations} (h : c.Asks plan.routing.discoveryRequest narrowing) :
    Sent plan driving narrowing c
  | fetch (keys : List JoinKey) (h : keys ≠ []) :
    Sent plan driving narrowing ⟨.root, .getMany, fetchRequest plan driving keys⟩
  | page (keys : List JoinKey) (h : keys ≠ []) :
    Sent plan driving narrowing ⟨.root, .getMany, windowed plan (fetchRequest plan driving keys)⟩
  | total :
    Sent plan driving narrowing
      ⟨.root, .getMany, { plan.routing.rootRequest with limit := some 1 }⟩
  | hydrate {c : Call relations} (h : c.Asks plan.routing.hydrationRequest plan.hydrated) :
    Sent plan driving narrowing c

theorem sends_readWindow (d : Discovery) :
    Fetch.Sends b (Sent plan driving narrowing) (d.readWindow plan driving narrowing) :=
  (Fetch.sends_getMany (.window _)).bind fun _ =>
    ((Discovery.sends_narrow _ _ _).mono fun _ => .narrow).bind fun _ => Fetch.sends_pure _

theorem sends_readAll (left : Nat) (d : Discovery) :
    Fetch.Sends b (Sent plan driving narrowing) (d.readAll plan driving narrowing left) := by
  induction left generalizing d with
  | zero => exact Fetch.sends_pure d
  | succ left ih =>
    unfold Discovery.readAll
    split
    · exact Fetch.sends_pure d
    · exact (sends_readWindow d).bind ih

theorem sends_gather (target left wanted : Nat) (g : Gathering) :
    Fetch.Sends b (Sent plan driving narrowing)
      (gather plan driving narrowing target left wanted g) := by
  induction left generalizing wanted g with
  | zero => exact sends_settle plan driving .fetch g
  | succ left ih =>
    unfold gather
    split
    · exact (sends_readWindow _).bind fun d => ih _ _
    · refine (sends_settle plan driving .fetch g).bind fun g => ?_
      split
      · exact Fetch.sends_pure g
      · exact (sends_readWindow _).bind fun d => ih _ _

theorem sends_orderedRoots {C : Call relations → Prop}
    (hpage : ∀ keys, keys ≠ [] →
      C ⟨.root, .getMany, windowed plan (fetchRequest plan driving keys)⟩)
    (htotal : C ⟨.root, .getMany, { plan.routing.rootRequest with limit := some 1 }⟩)
    (d : Discovery) : Fetch.Sends b C (orderedRoots plan driving d) := by
  unfold orderedRoots
  split
  · exact Fetch.sends_pure _
  · next hkeys =>
    have hne : d.keys ≠ [] := fun h => hkeys (List.isEmpty_iff.2 h)
    refine (Fetch.sends_getMany (hpage d.keys hne)).bind fun page => ?_
    split
    · exact (Fetch.sends_pure _).bind fun _ => Fetch.sends_pure _
    · exact (sends_rootTotal plan htotal).bind fun _ => Fetch.sends_pure _

theorem sends_gatheredRoots {C : Call relations → Prop}
    (htotal : C ⟨.root, .getMany, { plan.routing.rootRequest with limit := some 1 }⟩)
    (g : Gathering) : Fetch.Sends b C (gatheredRoots plan g) := by
  unfold gatheredRoots
  split
  · exact Fetch.sends_pure _
  · exact (sends_rootTotal plan htotal).bind fun _ => Fetch.sends_pure _

theorem sends_discoveredRoots : Fetch.Sends b (Sent plan driving narrowing)
    (discoveredRoots plan limits driving narrowing) := by
  unfold discoveredRoots
  split
  · exact (sends_readAll _ _).bind (sends_orderedRoots .page .total)
  · exact (sends_gather _ _ _ _).bind (sends_gatheredRoots .total)

theorem sends_finish {C : Call relations → Prop}
    (h : ∀ c : Call relations, c.Asks plan.routing.hydrationRequest plan.hydrated → C c)
    (found : List Record × UInt64) : Fetch.Sends b C (finish plan found) :=
  (Hydration.sends_hydrate plan h found.1).bind fun _ => Fetch.sends_pure _

variable (b plan limits driving narrowing) in
theorem sends_relationFirst : Fetch.Sends b (Sent plan driving narrowing)
    (relationFirst plan limits driving narrowing) := by
  rw [relationFirst_eq]
  exact sends_discoveredRoots.bind (sends_finish fun _ => .hydrate)

theorem pageOfPlan_eq : pageOfPlan plan limits = unattached plan limits >>= finish plan := by
  unfold pageOfPlan unattached
  cases plan.strategy with
  | rootFirst =>
    simp only [rootFirst, bind_assoc, pure_bind]
    rfl
  | relationFirst driving narrowing => exact relationFirst_eq

end Execution

end FederatedJoin
