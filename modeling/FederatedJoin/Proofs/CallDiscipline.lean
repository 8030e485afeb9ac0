-- SUMMARY: Which providers one request calls, in which order, and with which requests.
import FederatedJoin.Federation
import FederatedJoin.Proofs.RootFetches
import FederatedJoin.Proofs.Chains

/-!
# Call discipline

A request that is accepted calls the providers in three stages: relations of the
chain to discover keys, the root for the roots of those, and each relation that is
attached at most once at the end. This holds for every backend, whatever it answers
and wherever a call fails.
-/

namespace FederatedJoin

/-! ## Relations called -/

namespace Execution

variable {relations : List Relation} {b : Backend relations} {plan : Plan relations}
  {driving : RelationId relations} {narrowing : List (RelationId relations)}
  {t : List (Call relations)}

/-- Every request that the plan sends. What asks for keys asks for some. -/
inductive SentFor (plan : Plan relations) : Call relations → Prop where
  | roots (h : plan.strategy = .rootFirst) :
    SentFor plan ⟨.root, .getMany, windowed plan (rootRequest plan)⟩
  | attach {c : Call relations} (h : c.Asks plan.routing.hydrationRequest plan.hydrated) :
    SentFor plan c
  | discover {driving : RelationId relations} {narrowing : List (RelationId relations)}
    {c : Call relations} (hstrategy : plan.strategy = .relationFirst driving narrowing)
    (h : Sent plan driving narrowing c) : SentFor plan c

theorem sends_unattached (limits : Limits) :
    Fetch.Sends b (SentFor plan) (unattached plan limits) := by
  unfold unattached
  cases hstrategy : plan.strategy with
  | rootFirst => exact (Fetch.sends_getMany (.roots hstrategy)).bind fun _ => Fetch.sends_pure _
  | relationFirst driving narrowing => exact sends_discoveredRoots.mono fun _ => .discover hstrategy

theorem Call.Asks.id_mem {request : RelationId relations → Request}
    {ids : List (RelationId relations)} {c : Call relations} (h : c.Asks request ids)
    {id : RelationId relations} (hid : c.source = .relation id) : id ∈ ids := by
  cases h with
  | keys other keys hother hkeys =>
    cases hid
    exact hother

theorem Call.Asks.request_eq {request : RelationId relations → Request}
    {ids : List (RelationId relations)} {c : Call relations} (h : c.Asks request ids)
    {id : RelationId relations} (hid : c.source = .relation id) :
    ∃ keys, c.request = (request id).constrainKeys (relations.get id).relationKeyField keys := by
  cases h with
  | keys other keys hother hkeys =>
    cases hid
    exact ⟨keys, rfl⟩

theorem SentFor.id_mem_hydrated {limits : Limits} {r : Request} (hmade : plan.MadeFor limits r)
    {c : Call relations} (h : SentFor plan c) {id : RelationId relations}
    (hid : c.source = .relation id) : id ∈ plan.hydrated := by
  cases h with
  | roots => cases hid
  | attach h => exact Call.Asks.id_mem h hid
  | @discover driving narrowing _ hstrategy h =>
    have hchain : plan.strategy.chain = driving :: narrowing := by rw [hstrategy]; rfl
    have hmem {id : RelationId relations} (h : id ∈ driving :: narrowing) : id ∈ plan.hydrated :=
      hmade.mem_hydrated_of_mem_chain (hchain ▸ h)
    cases h with
    | window w =>
      cases hid
      exact hmem List.mem_cons_self
    | narrow h => exact hmem (List.mem_cons_of_mem _ (Call.Asks.id_mem h hid))
    | hydrate h => exact Call.Asks.id_mem h hid
    | fetch => cases hid
    | page => cases hid
    | total => cases hid

/-! ## Fetches of one key -/

theorem countP_mem_le_count (asked : List (List JoinKey)) (key : JoinKey) :
    asked.countP (key ∈ ·) ≤ asked.flatten.count key := by
  induction asked with
  | nil => exact Nat.le_refl _
  | cons keys rest ih =>
    rw [List.countP_cons, List.flatten_cons, List.count_append]
    split
    · next hmem =>
      have hpos := List.count_pos_iff.2 (of_decide_eq_true hmem)
      omega
    · omega

/-- Of fetches that ask for no key twice at most one asks for the key. -/
theorem countP_mem_le_one {asked : List (List JoinKey)} (h : asked.flatten.Nodup) (key : JoinKey) :
    asked.countP (key ∈ ·) ≤ 1 :=
  Nat.le_trans (countP_mem_le_count asked key) (List.nodup_iff_count.1 h key)

theorem countP_mem_eq_one {asked : List (List JoinKey)} (h : asked.flatten.Nodup) {key : JoinKey}
    (hkey : key ∈ asked.flatten) : asked.countP (key ∈ ·) = 1 := by
  obtain ⟨keys, hkeys, hmem⟩ := List.mem_flatten.1 hkey
  have hpos : 0 < asked.countP (key ∈ ·) :=
    List.countP_pos_iff.2 ⟨keys, hkeys, decide_eq_true hmem⟩
  exact Nat.le_antisymm (countP_mem_le_one h key) hpos

/-! ## Attaching relations -/

/-- One request at most for each relation, without a window or an order, and only if a root has a
key of it. -/
structure AttachesOnce (plan : Plan relations) (roots : List Record)
    (calls : List (Call relations)) : Prop where
  once : (calls.map (·.source)).Nodup
  each : ∀ c ∈ calls, ∃ id ∈ plan.hydrated, c.source = .relation id ∧
    c.request.limit = none ∧ c.request.offset = none ∧ c.request.page = none ∧
    c.request.sorts = [] ∧ ∃ root ∈ roots, root.joinKey? (relations.get id).rootKeyField ≠ none

theorem attachesOnce_tasks (hnodup : plan.hydrated.Nodup) (roots : List Record) (n : Nat) :
    AttachesOnce plan roots
      (((Hydration.prepare plan.routing plan.hydrated roots).2.take n).map (·.call)) where
  once := by
    have hids := (Hydration.map_id_prepare_sublist plan.routing plan.hydrated roots).nodup hnodup
    have htaken := hids.sublist ((List.take_sublist n _).map _)
    rw [List.map_map]
    exact List.pairwise_map.2 ((List.pairwise_map.1 htaken).imp fun hne heq =>
      hne (Source.relation.inj heq))
  each c hc := by
    obtain ⟨task, htask, rfl⟩ := List.mem_map.1 hc
    obtain ⟨hasks, hroot⟩ := Hydration.exists_keys_of_mem_prepare (List.mem_of_mem_take htask)
    obtain ⟨keys, hrequest⟩ := Call.Asks.request_eq hasks rfl
    refine ⟨task.id, Call.Asks.id_mem hasks rfl, rfl, ?_⟩
    rw [hrequest]
    exact ⟨rfl, rfl, rfl, rfl, hroot⟩

/-- Hydration attaches to the roots and changes nothing else of them. -/
theorem finish_wp (hnodup : plan.hydrated.Nodup) (found : List Record × UInt64) :
    (finish plan found).wp b t fun res t' => ∃ calls, t' = t ++ calls ∧
      AttachesOnce plan found.1 calls ∧ ∀ page, res = .ok page →
        page.data.map (·.outside plan.attached) = found.1.map (·.outside plan.attached) := by
  have hmem : ∀ id ∈ plan.hydrated, (relations.get id).property ∈ plan.attached :=
    fun id hid => List.mem_map_of_mem hid
  have hids := Hydration.map_id_prepare_sublist plan.routing plan.hydrated found.1
  unfold finish Hydration.hydrate
  rw [bind_assoc]
  refine Fetch.wp_bind (Hydration.fetchAll_wp _) ?_ ?_
  · rintro fetched _ ⟨⟨n, rfl⟩, hfetched⟩
    refine Fetch.wp_pure ⟨_, rfl, attachesOnce_tasks hnodup found.1 n, ?_⟩
    rintro _ ⟨⟩
    have hattached : ∀ p ∈ fetched, (relations.get p.1).property ∈ plan.attached := by
      intro p hp
      have hid : p.1 ∈ fetched.map (·.1) := List.mem_map_of_mem hp
      rw [hfetched fetched rfl] at hid
      exact hmem p.1 (hids.subset hid)
    exact (Hydration.map_outside_attachAll fetched _ hattached).trans
      (Hydration.map_outside_prepare plan.routing plan.hydrated found.1 hmem)
  · rintro e _ ⟨⟨n, rfl⟩, -⟩
    exact ⟨_, rfl, attachesOnce_tasks hnodup found.1 n, fun _ h => nomatch h⟩

/-! ## Whole requests -/

/-- What holds of the calls of one request, whatever it ends with. -/
structure CallDiscipline (b : Backend relations) (plan : Plan relations) (limits : Limits)
    (res : Except Failure Page) (t : List (Call relations)) : Prop where
  /-- Only relations that are attached are called. -/
  hydrated : ∀ c ∈ t, ∀ id, c.source = .relation id → id ∈ plan.hydrated
  /-- What asks for keys asks for some. -/
  sent : ∀ c ∈ t, SentFor plan c
  /-- The root is not called before a key was discovered. -/
  root_after : ∀ driving narrowing, plan.strategy = .relationFirst driving narrowing →
    RootAfterKey b driving narrowing t
  /-- Without a key the root is not called, and the page is empty unless the last call failed. -/
  no_key : ∀ driving narrowing, plan.strategy = .relationFirst driving narrowing →
    (∀ key, ¬ Discovered b driving narrowing key [] t) →
      (∀ c ∈ t, c.source ≠ .root) ∧
        (res = .ok (.empty plan.offset plan.limit) ∨ ∃ e, res = .error e ∧ Fetch.FailedLast b e t)
  /-- Each discovered key is asked for by one fetch; if a call failed, perhaps by none. -/
  asked : ∀ driving narrowing, plan.strategy = .relationFirst driving narrowing →
    plan.isRootOrdered = false → ∃ asked, Fetches plan driving asked t ∧
      ∀ key, Discovered b driving narrowing key [] t →
        asked.countP (key ∈ ·) ≤ 1 ∧ ∀ page, res = .ok page → asked.countP (key ∈ ·) = 1
  /-- After all that led to the roots, relations are attached to them. -/
  attached : ∃ calls, t = (unattached plan limits b []).2 ++ calls ∧
    (∀ e, (unattached plan limits b []).1 = .error e → calls = []) ∧
    ∀ found, (unattached plan limits b []).1 = .ok found →
      AttachesOnce plan found.1 calls ∧ ∀ page, res = .ok page →
        page.data.map (·.outside plan.attached) = found.1.map (·.outside plan.attached)

variable (b plan driving narrowing) in
/-- Attaching relations changes nothing about discovery. -/
theorem relationFirst_settled (limits : Limits) :
    (relationFirst plan limits driving narrowing).wp b [] fun res t =>
      AskedOnce b plan driving narrowing t ∧ ∀ page, res = .ok page →
        ∃ keys, Settled b plan driving narrowing keys t ∧ (keys = [] → page = emptyPage plan) := by
  rw [relationFirst_eq]
  refine Fetch.wp_bind (discoveredRoots_finds limits) (fun found t hfinds => ?_)
    fun _ _ hfinds => ⟨hfinds.asked_once, fun _ h => nomatch h⟩
  obtain ⟨keys, hsettled, hnil⟩ := hfinds.settled found rfl
  by_cases hkeys : keys = []
  · rw [hnil hkeys, finish_nil]
    refine Fetch.wp_pure ⟨hfinds.asked_once, ?_⟩
    rintro _ ⟨⟩
    exact ⟨keys, hsettled, fun _ => rfl⟩
  · have hsends : Fetch.Sends b (fun c => c.readsWindow driving = false ∧ c.fetchesRoots = false)
        (finish plan found) := by
      refine sends_finish (fun c hc => ⟨hc.not_readsWindow (fun _ => rfl) driving, ?_⟩) found
      simp [Call.fetchesRoots, hc.source_ne_root]
    refine Fetch.wp_mono (hsettled.preserves hkeys hsends) fun _ _ hend => ?_
    exact ⟨hend.asked_once, fun page _ => ⟨keys, hend, fun h => absurd h hkeys⟩⟩

theorem relationFirst_no_key (limits : Limits)
    (h : ∀ key, ¬ Discovered b driving narrowing key []
      (relationFirst plan limits driving narrowing b []).2) :
    (∀ c ∈ (relationFirst plan limits driving narrowing b []).2, c.source ≠ .root) ∧
      ((relationFirst plan limits driving narrowing b []).1 =
          .ok (.empty plan.offset plan.limit) ∨
        ∃ e, (relationFirst plan limits driving narrowing b []).1 = .error e ∧
          Fetch.FailedLast b e (relationFirst plan limits driving narrowing b []).2) := by
  obtain ⟨⟨asked, -, hasked⟩, hok⟩ := relationFirst_settled b plan driving narrowing limits
  constructor
  · intro c hc hroot
    obtain ⟨front, back, hsplit⟩ := List.append_of_mem hc
    obtain ⟨key, hkey⟩ := hasked.after front c back hsplit hroot
    exact h key (hsplit ▸ hkey.append (c :: back))
  · cases hres : (relationFirst plan limits driving narrowing b []).1 with
    | ok page =>
      obtain ⟨keys, hsettled, hnil⟩ := hok page hres
      have hkeys : keys = [] := List.eq_nil_iff_forall_not_mem.2 fun key hkey =>
        h key ((hsettled.knows.mem_iff key).1 hkey)
      exact .inl (congrArg Except.ok (hnil hkeys))
    | error e =>
      have hsends := sends_relationFirst b plan limits driving narrowing []
      exact .inr ⟨e, rfl, hsends.2 e hres⟩

theorem relationFirst_asked (limits : Limits) (hordered : plan.isRootOrdered = false) :
    ∃ asked, Fetches plan driving asked (relationFirst plan limits driving narrowing b []).2 ∧
      ∀ key, Discovered b driving narrowing key []
          (relationFirst plan limits driving narrowing b []).2 →
        asked.countP (key ∈ ·) ≤ 1 ∧
          ∀ page, (relationFirst plan limits driving narrowing b []).1 = .ok page →
            asked.countP (key ∈ ·) = 1 := by
  obtain ⟨⟨known, hnodup, hknown⟩, hok⟩ := relationFirst_settled b plan driving narrowing limits
  cases hres : (relationFirst plan limits driving narrowing b []).1 with
  | ok page =>
    obtain ⟨keys, hsettled, -⟩ := hok page hres
    obtain ⟨asked, hfetches, rfl⟩ := (hsettled.asked hordered).fetches
    refine ⟨asked, hfetches, fun key hkey => ?_⟩
    have hone := countP_mem_eq_one hsettled.knows.nodup ((hsettled.knows.mem_iff key).2 hkey)
    exact ⟨Nat.le_of_eq hone, fun _ _ => hone⟩
  | error e =>
    obtain ⟨asked, hfetches, rfl⟩ := hknown.fetches
    exact ⟨asked, hfetches, fun key _ => ⟨countP_mem_le_one hnodup key, fun _ h => nomatch h⟩⟩

theorem pageOfPlan_attached (hnodup : plan.hydrated.Nodup) (limits : Limits) :
    ∃ calls, (pageOfPlan plan limits b []).2 = (unattached plan limits b []).2 ++ calls ∧
      (∀ e, (unattached plan limits b []).1 = .error e → calls = []) ∧
      ∀ found, (unattached plan limits b []).1 = .ok found →
        AttachesOnce plan found.1 calls ∧ ∀ page, (pageOfPlan plan limits b []).1 = .ok page →
          page.data.map (·.outside plan.attached) = found.1.map (·.outside plan.attached) := by
  rw [pageOfPlan_eq, Fetch.bind_apply]
  cases hrun : unattached plan limits b [] with
  | mk res t =>
    cases res with
    | error e => exact ⟨[], (List.append_nil t).symm, fun _ _ => rfl, fun _ h => nomatch h⟩
    | ok found =>
      obtain ⟨calls, ht, honce, hshown⟩ := finish_wp (b := b) (t := t) hnodup found
      refine ⟨calls, ht, (fun _ h => nomatch h), ?_⟩
      rintro _ ⟨⟩
      exact ⟨honce, hshown⟩

theorem callDiscipline {limits : Limits} {r : Request} (hmade : plan.MadeFor limits r)
    (b : Backend relations) :
    CallDiscipline b plan limits (pageOfPlan plan limits b []).1
      (pageOfPlan plan limits b []).2 := by
  have hsends : Fetch.Sends b (SentFor plan) (pageOfPlan plan limits) := by
    rw [pageOfPlan_eq]
    exact (sends_unattached limits).bind (sends_finish fun _ => .attach)
  obtain ⟨⟨calls, ht, hsent⟩, -⟩ := hsends []
  rw [List.nil_append] at ht
  have hrelation {driving : RelationId relations} {narrowing : List (RelationId relations)}
      (h : plan.strategy = .relationFirst driving narrowing) :
      pageOfPlan plan limits = relationFirst plan limits driving narrowing := by
    unfold pageOfPlan
    rw [h]
  refine ⟨fun c hc id hid => ?_, fun c hc => ?_, fun driving narrowing h => ?_,
    fun driving narrowing h => ?_, fun driving narrowing h => ?_, ?_⟩
  · exact (hsent c (ht ▸ hc)).id_mem_hydrated hmade hid
  · exact hsent c (ht ▸ hc)
  · obtain ⟨⟨asked, -, hasked⟩, -⟩ := relationFirst_settled b plan driving narrowing limits
    rw [hrelation h]
    exact hasked.after
  · rw [hrelation h]
    exact relationFirst_no_key limits
  · rw [hrelation h]
    exact relationFirst_asked limits
  · exact pageOfPlan_attached hmade.nodup_hydrated limits

end Execution

open Execution in
/-- Every accepted request keeps to the discipline, whatever the providers answer. -/
theorem Federation.getMany_disciplined {α : Type} (f : Federation α) {r : Request}
    {plan : Plan f.schema.relations} (hplan : f.plan r = .ok plan)
    (b : Backend f.schema.relations) :
    CallDiscipline b plan f.limits ((f.getMany r).run b).1 ((f.getMany r).run b).2 := by
  rw [Federation.getMany_of_plan hplan]
  exact callDiscipline (Plan.make_eq_ok_iff.1 hplan) b

namespace Shop

open Execution

/-- A page of one customer with an order. -/
def oneOrdering : Request :=
  { Request.empty with filters := [priced orders], limit := some 1 }

def unstocked : Federation Collection := federation orders ⟨3, 100, 10, true⟩ [] []

theorem plan_oneOrdering : unstocked.plan oneOrdering = .ok endlessPlan := rfl

/-- Four windows name the same customer, who is asked for once. -/
theorem getMany_disciplined_endless :
    CallDiscipline endless endlessPlan unstocked.limits
        ((unstocked.getMany oneOrdering).run endless).1
        ((unstocked.getMany oneOrdering).run endless).2 ∧
      Fetches endlessPlan theOrders [[.int 1]] ((unstocked.getMany oneOrdering).run endless).2 :=
  ⟨Federation.getMany_disciplined unstocked plan_oneOrdering endless, by cbv⟩

end Shop

end FederatedJoin
