-- SUMMARY: The root is asked for discovered keys only, and for each of them at most once.
import FederatedJoin.Proofs.SurvivingKeys

/-!
# Root fetches

Roots are fetched for the keys that became known since the last fetch, and once
gathering ends nothing is pending. The keys that the fetches of a trace ask for are
therefore the known keys up to those still pending, each of them once. The root is not
called before there is a key to ask for; a fetch that fails has asked for its keys too,
but then nothing is called after it.
-/

namespace FederatedJoin

variable {relations : List Relation}

/-- Whether the call fetches roots; the other calls to the root have a limit. -/
def Call.fetchesRoots (c : Call relations) : Bool := c.source = .root && c.request.limit.isNone

namespace Execution

variable (b : Backend relations) (plan : Plan relations) (driving : RelationId relations)
  (narrowing : List (RelationId relations))

def fetchCall (keys : List JoinKey) : Call relations :=
  ⟨.root, .getMany, fetchRequest plan driving keys⟩

/-- The fetches of the trace are those for the listed keys. -/
def Fetches (asked : List (List JoinKey)) (t : List (Call relations)) : Prop :=
  t.filter (·.fetchesRoots) = asked.map (fetchCall plan driving)

/-- Every call to the root comes after a key was discovered. -/
def RootAfterKey (t : List (Call relations)) : Prop :=
  ∀ front c back, t = front ++ c :: back → c.source = .root →
    ∃ key, Discovered b driving narrowing key [] front

/-- The root is called after discovery, and the fetches ask for the keys one after the other. -/
structure AskedFor (keys : List JoinKey) (t : List (Call relations)) : Prop where
  after : RootAfterKey b driving narrowing t
  fetches : ∃ asked, Fetches plan driving asked t ∧ asked.flatten = keys

/-- The root is called after discovery, and for no key twice. -/
def AskedOnce (t : List (Call relations)) : Prop :=
  ∃ keys, keys.Nodup ∧ AskedFor b plan driving narrowing keys t

/-- What was gathered was asked for, in the order of the known keys. -/
structure Gathers (g : Gathering) (t : List (Call relations)) : Prop where
  knows : Discovery.KnowsKeys b driving narrowing g.discovery.keys t
  fetched_le : g.fetched ≤ g.discovery.keys.length
  asked : AskedFor b plan driving narrowing (g.discovery.keys.take g.fetched) t

variable {b plan driving narrowing} {t : List (Call relations)} {keys : List JoinKey}
  {g : Gathering}

/-! ## Adding calls -/

theorem RootAfterKey.append (h : RootAfterKey b driving narrowing t) {c : Call relations}
    (hc : c.source = .root → ∃ key, Discovered b driving narrowing key [] t) :
    RootAfterKey b driving narrowing (t ++ [c]) := by
  intro front c' back hsplit hroot
  rcases split_append_singleton hsplit with ⟨rfl, rfl, -⟩ | ⟨rest, hrest, -⟩
  · exact hc hroot
  · exact h front c' rest hrest hroot

theorem AskedFor.start : AskedFor b plan driving narrowing [] [] where
  after := fun front c back h => by simp at h
  fetches := ⟨[], rfl, rfl⟩

theorem AskedFor.append (h : AskedFor b plan driving narrowing keys t) {c : Call relations}
    (hfetch : c.fetchesRoots = false)
    (hkey : c.source = .root → ∃ key, Discovered b driving narrowing key [] t) :
    AskedFor b plan driving narrowing keys (t ++ [c]) where
  after := h.after.append hkey
  fetches := by
    obtain ⟨asked, hasked, hflatten⟩ := h.fetches
    refine ⟨asked, ?_, hflatten⟩
    unfold Fetches
    rw [List.filter_append, List.filter_cons_of_neg (by simp [hfetch]), List.filter_nil,
      List.append_nil]
    exact hasked

/-- Calls to relations ask for no roots. -/
theorem AskedFor.append_of_ne_root (h : AskedFor b plan driving narrowing keys t)
    {c : Call relations} (hc : c.source ≠ .root) :
    AskedFor b plan driving narrowing keys (t ++ [c]) :=
  h.append (by simp [Call.fetchesRoots, hc]) fun hroot => absurd hroot hc

theorem AskedFor.fetch (h : AskedFor b plan driving narrowing keys t)
    (hkey : ∃ key, Discovered b driving narrowing key [] t) (more : List JoinKey) :
    AskedFor b plan driving narrowing (keys ++ more) (t ++ [fetchCall plan driving more]) where
  after := h.after.append fun _ => hkey
  fetches := by
    obtain ⟨asked, hasked, rfl⟩ := h.fetches
    refine ⟨asked ++ [more], ?_, by simp⟩
    unfold Fetches
    rw [List.filter_append, hasked, List.map_append]
    rfl

theorem Gathers.start {d : Discovery} (hd : d.keys = []) :
    Gathers b plan driving narrowing ⟨d, [], 0⟩ [] where
  knows := hd ▸ .start
  fetched_le := Nat.zero_le _
  asked := .start

theorem Gathers.nodup_asked (h : Gathers b plan driving narrowing g t) :
    (g.discovery.keys.take g.fetched).Nodup :=
  h.knows.nodup.sublist (List.take_sublist ..)

/-! ## Along a run -/

theorem exists_discovered (h : Discovery.KnowsKeys b driving narrowing keys t) (hne : keys ≠ []) :
    ∃ key, Discovered b driving narrowing key [] t := by
  obtain ⟨key, hkey⟩ := List.exists_mem_of_ne_nil keys hne
  exact ⟨key, (h.mem_iff key).1 hkey⟩

theorem Gathers.settle_wp (h : Gathers b plan driving narrowing g t) :
    (settle plan driving g).wp b t fun res t' => AskedOnce b plan driving narrowing t' ∧
      ∀ g', res = .ok g' → Gathers b plan driving narrowing g' t' ∧
        g'.fetched = g'.discovery.keys.length := by
  unfold settle
  split
  · next hpending =>
    exact Fetch.wp_pure_ok ⟨_, h.nodup_asked, h.asked⟩
      ⟨h, Nat.le_antisymm h.fetched_le (List.drop_eq_nil_iff.1 hpending)⟩
  · next hpending =>
    have hne : g.discovery.keys ≠ [] := fun hnil => hpending (by rw [hnil, List.drop_nil])
    have hasked := h.asked.fetch (exists_discovered h.knows hne) (g.discovery.keys.drop g.fetched)
    rw [List.take_append_drop] at hasked
    refine Fetch.wp_getMany_bind (fun page _ => Fetch.wp_pure_ok ⟨_, h.knows.nodup, hasked⟩ ?_)
      fun _ _ => ⟨⟨_, h.knows.nodup, hasked⟩, fun _ h => nomatch h⟩
    exact ⟨⟨h.knows.append rfl, Nat.le_refl _, by rwa [List.take_length]⟩, rfl⟩

theorem Gathers.readWindow_wp (h : Gathers b plan driving narrowing g t) :
    (g.discovery.readWindow plan driving narrowing).wp b t fun res t' =>
      AskedOnce b plan driving narrowing t' ∧
        ∀ d, res = .ok d → Gathers b plan driving narrowing { g with discovery := d } t' := by
  have hcalls := Discovery.readWindow_wp (b := b) (t := t) plan driving narrowing g.discovery
  refine Fetch.wp_mono (Fetch.wp_and hcalls h.knows.readWindow_wp) ?_
  rintro res _ ⟨⟨calls, rfl, hasks, -⟩, hknows⟩
  have hrelations : ∀ c ∈ g.discovery.windowCall plan driving :: calls, c.source ≠ .root :=
    List.forall_mem_cons.2 ⟨nofun, fun c hc => (hasks c hc).source_ne_root⟩
  have hasked := Fetch.stable_append (fun _ _ hc h => h.append_of_ne_root hc) hrelations h.asked
  refine ⟨⟨_, h.nodup_asked, hasked⟩, fun d hd => ?_⟩
  obtain ⟨hkeys, hprefix⟩ := hknows d hd
  refine ⟨hkeys, Nat.le_trans h.fetched_le hprefix.length_le, ?_⟩
  obtain ⟨more, hmore⟩ := hprefix
  have htake : d.keys.take g.fetched = g.discovery.keys.take g.fetched := by
    rw [← hmore, List.take_append_of_le_length h.fetched_le]
  exact htake ▸ hasked

theorem gather_asked {target left wanted : Nat} (h : Gathers b plan driving narrowing g t) :
    (gather plan driving narrowing target left wanted g).wp b t fun res t' =>
      AskedOnce b plan driving narrowing t' ∧
        ∀ g', res = .ok g' → Gathers b plan driving narrowing g' t' ∧
          g'.fetched = g'.discovery.keys.length := by
  induction left generalizing g wanted t with
  | zero => exact h.settle_wp
  | succ left ih =>
    have hnext {g : Gathering} {t : List (Call relations)} {wanted : Nat}
        (h : Gathers b plan driving narrowing g t) :
        (g.discovery.readWindow plan driving narrowing >>= fun d =>
          gather plan driving narrowing target left wanted { g with discovery := d }).wp b t
            fun res t' => AskedOnce b plan driving narrowing t' ∧
              ∀ g', res = .ok g' → Gathers b plan driving narrowing g' t' ∧
                g'.fetched = g'.discovery.keys.length :=
      Fetch.wp_bind_ok h.readWindow_wp fun _ _ _ hread => ih hread
    unfold gather
    split
    · exact hnext h
    · refine Fetch.wp_bind_ok h.settle_wp fun g' t' hasked hsettled => ?_
      split
      · exact Fetch.wp_pure_ok hasked hsettled
      · exact hnext hsettled.1

/-- Reading all windows asks for no roots. -/
theorem readAll_asked {left : Nat} {d : Discovery}
    (h : Gathers b plan driving narrowing ⟨d, [], 0⟩ t) :
    (d.readAll plan driving narrowing left).wp b t fun res t' =>
      AskedOnce b plan driving narrowing t' ∧
        ∀ d', res = .ok d' → Gathers b plan driving narrowing ⟨d', [], 0⟩ t' := by
  induction left generalizing d t with
  | zero => exact Fetch.wp_pure_ok ⟨_, h.nodup_asked, h.asked⟩ h
  | succ left ih =>
    unfold Discovery.readAll
    split
    · exact Fetch.wp_pure_ok ⟨_, h.nodup_asked, h.asked⟩ h
    · exact Fetch.wp_bind_ok h.readWindow_wp fun _ _ _ hread => ih hread

/-! ## Before anything is attached -/

/-- Discovery ended with these keys; unless the root orders the page, their roots were fetched. -/
structure Settled (b : Backend relations) (plan : Plan relations) (driving : RelationId relations)
    (narrowing : List (RelationId relations)) (keys : List JoinKey) (t : List (Call relations)) :
    Prop where
  knows : Discovery.KnowsKeys b driving narrowing keys t
  asked_once : AskedOnce b plan driving narrowing t
  asked : plan.isRootOrdered = false → AskedFor b plan driving narrowing keys t

theorem Settled.append (h : Settled b plan driving narrowing keys t) {c : Call relations}
    (hreads : c.readsWindow driving = false) (hfetch : c.fetchesRoots = false)
    (hkey : c.source = .root → keys ≠ []) : Settled b plan driving narrowing keys (t ++ [c]) where
  knows := h.knows.append hreads
  asked_once := by
    obtain ⟨asked, hnodup, hasked⟩ := h.asked_once
    exact ⟨asked, hnodup, hasked.append hfetch fun hc => exists_discovered h.knows (hkey hc)⟩
  asked hordered := (h.asked hordered).append hfetch fun hc => exists_discovered h.knows (hkey hc)

/-- A computation that neither reads windows nor fetches roots leaves discovery settled. -/
theorem Settled.preserves {α : Type} {x : Fetch relations α}
    (h : Settled b plan driving narrowing keys t) (hne : keys ≠ [])
    (hx : Fetch.Sends b (fun c => c.readsWindow driving = false ∧ c.fetchesRoots = false) x) :
    x.wp b t fun _ t' => Settled b plan driving narrowing keys t' :=
  hx.preserves (fun _ _ hc h => h.append hc.1 hc.2 fun _ => hne) h

/-- However discovery ends, no key was asked for twice; it is settled when it finds its roots, and
without a key it finds none. -/
structure Finds (b : Backend relations) (plan : Plan relations) (driving : RelationId relations)
    (narrowing : List (RelationId relations)) (res : Except Failure (List Record × UInt64))
    (t : List (Call relations)) : Prop where
  asked_once : AskedOnce b plan driving narrowing t
  settled : ∀ found, res = .ok found →
    ∃ keys, Settled b plan driving narrowing keys t ∧ (keys = [] → found = ([], 0))

theorem Settled.finds_wp (h : Settled b plan driving narrowing keys t)
    {x : Fetch relations (List Record × UInt64)} (hnil : keys = [] → x = pure ([], 0))
    (hx : Fetch.Sends b (fun c => c.readsWindow driving = false ∧ c.fetchesRoots = false) x) :
    x.wp b t (Finds b plan driving narrowing) := by
  by_cases hkeys : keys = []
  · rw [hnil hkeys]
    refine Fetch.wp_pure ⟨h.asked_once, ?_⟩
    rintro _ ⟨⟩
    exact ⟨keys, h, fun _ => rfl⟩
  · refine Fetch.wp_mono (h.preserves hkeys hx) fun res t' hsettled => ?_
    exact ⟨hsettled.asked_once, fun found _ => ⟨keys, hsettled, fun h => absurd h hkeys⟩⟩

theorem discoveredRoots_finds (limits : Limits) :
    (discoveredRoots plan limits driving narrowing).wp b [] (Finds b plan driving narrowing) := by
  unfold discoveredRoots
  split
  · next hordered =>
    refine Fetch.wp_bind (readAll_asked (.start rfl)) (fun d t hd => ?_) fun _ _ h =>
      ⟨h.1, fun _ h => nomatch h⟩
    refine Settled.finds_wp ⟨(hd.2 d rfl).knows, hd.1, fun h => ?_⟩
      (fun hnil => if_pos (List.isEmpty_iff.2 hnil))
      (sends_orderedRoots (fun _ _ => ⟨rfl, rfl⟩) ⟨rfl, rfl⟩ d)
    rw [hordered] at h
    cases h
  · refine Fetch.wp_bind (gather_asked (.start rfl)) (fun g t hg => ?_) fun _ _ h =>
      ⟨h.1, fun _ h => nomatch h⟩
    obtain ⟨hgathers, hall⟩ := hg.2 g rfl
    refine Settled.finds_wp ⟨hgathers.knows, hg.1, fun _ => ?_⟩
      (fun hnil => if_pos (List.isEmpty_iff.2 hnil)) (sends_gatheredRoots ⟨rfl, rfl⟩ g)
    have hasked := hgathers.asked
    rwa [hall, List.take_length] at hasked

end Execution

end FederatedJoin
