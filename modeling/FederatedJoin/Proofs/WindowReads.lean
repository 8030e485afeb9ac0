-- SUMMARY: Discovery reads consecutive windows, not beyond a short one, and not more than allowed.
import FederatedJoin.Proofs.Loops

/-!
# Windows read

Whatever the providers answer, the windows that discovery asks for lie next to each
other and start below the greatest offset, and the first that comes back short is the
last. Ordered by the driving relation there are no more of them than the page needs
and `maxIterations` besides. All this is a fact about the trace; other calls leave it
alone, those to the same relation included, which ask for keys and not for a window.
-/

namespace FederatedJoin

variable {relations : List Relation}

/-- Whether the call asks the driving relation for a window. -/
def Call.readsWindow (driving : RelationId relations) (c : Call relations) : Bool :=
  c.source = .relation driving && c.request.limit.isSome

theorem Call.Asks.not_readsWindow {request : RelationId relations → Request}
    (hrequest : ∀ id, (request id).limit = none) {ids : List (RelationId relations)}
    {c : Call relations} (h : c.Asks request ids) (driving : RelationId relations) :
    c.readsWindow driving = false := by
  cases h with
  | keys id keys hid hkeys =>
    have hlimit : ((request id).constrainKeys (relations.get id).relationKeyField keys).limit =
        none := hrequest id
    simp only [readsWindow, hlimit, Option.isSome_none, Bool.and_false]

theorem readsWindow_windowCall (plan : Plan relations) (driving : RelationId relations)
    (d : Discovery) : (d.windowCall plan driving).readsWindow driving = true := by
  simp [Call.readsWindow, Discovery.windowCall, Discovery.windowRequest]

namespace Execution

variable (b : Backend relations) (plan : Plan relations) (maxOffset : UInt64)
  (driving : RelationId relations)

/-! ## Windows in a trace -/

/-- The answer has as many rows as the window has room for. -/
def AnsweredFull (t : List (Call relations)) (c : Call relations) : Prop :=
  ∃ page, b.getMany t c.source c.request = .ok page ∧ plan.limit.toNat ≤ page.data.length

/-- The first `n` windows were read in order, the next one only after a full one. -/
structure ReadsWindows (n : Nat) (t : List (Call relations)) : Prop where
  consecutive : (t.filter (·.readsWindow driving)).map
      (fun c => (c.request.limit, c.request.offset.map (·.toNat))) =
    (List.range n).map fun k => (some plan.limit, some (k * plan.limit.toNat))
  below : ∀ k < n, k * plan.limit.toNat < maxOffset.toNat
  full : ∀ front c back, t = front ++ c :: back → c.readsWindow driving = true →
    (∃ c' ∈ back, c'.readsWindow driving = true) → AnsweredFull b plan front c

/-- Moreover discovery is about to read the next window, unless the last one was short. -/
structure ReadSoFar (n : Nat) (d : Discovery) (t : List (Call relations)) : Prop
    extends ReadsWindows b plan maxOffset driving n t where
  cursor_eq : d.cursor = Cursor.advance^[n] (.start plan.limit maxOffset)
  open_full : d.exhausted = false → ∀ front c back, t = front ++ c :: back →
    c.readsWindow driving = true → AnsweredFull b plan front c

variable {b plan maxOffset driving} {n : Nat} {d : Discovery} {t : List (Call relations)}

/-- What is before and after a call of a longer trace. -/
theorem split_append_singleton {α : Type} {xs front back : List α} {x y : α}
    (h : xs ++ [x] = front ++ y :: back) :
    (front = xs ∧ y = x ∧ back = []) ∨ ∃ rest, xs = front ++ y :: rest ∧ back = rest ++ [x] := by
  rcases List.eq_nil_or_concat back with rfl | ⟨rest, z, rfl⟩
  · obtain ⟨rfl, heq⟩ := List.append_inj' h rfl
    cases heq
    exact .inl ⟨rfl, rfl, rfl⟩
  · rw [List.concat_eq_append, ← List.cons_append, ← List.append_assoc] at h
    obtain ⟨rfl, heq⟩ := List.append_inj' h rfl
    cases heq
    exact .inr ⟨rest, rfl, List.concat_eq_append⟩

theorem ReadsWindows.start : ReadsWindows b plan maxOffset driving 0 [] where
  consecutive := rfl
  below := fun _ h => nomatch h
  full := fun front c back h => by simp at h

theorem ReadsWindows.append (h : ReadsWindows b plan maxOffset driving n t) {c : Call relations}
    (hc : c.readsWindow driving = false) : ReadsWindows b plan maxOffset driving n (t ++ [c]) where
  consecutive := by
    rw [List.filter_append, List.filter_cons_of_neg (by simp [hc]), List.filter_nil,
      List.append_nil]
    exact h.consecutive
  below := h.below
  full := by
    rintro front c' back hsplit hreads ⟨later, hmem, hlater⟩
    rcases split_append_singleton hsplit with ⟨-, -, rfl⟩ | ⟨rest, hrest, rfl⟩
    · cases hmem
    · refine h.full front c' rest hrest hreads ⟨later, ?_, hlater⟩
      refine (List.mem_append.1 hmem).resolve_right fun hlast => ?_
      rw [List.mem_singleton.1 hlast, hc] at hlater
      cases hlater

theorem ReadSoFar.start :
    ReadSoFar b plan maxOffset driving 0 (.start plan.limit maxOffset) [] where
  toReadsWindows := .start
  cursor_eq := rfl
  open_full := fun _ front c back h => by simp at h

theorem ReadSoFar.append (h : ReadSoFar b plan maxOffset driving n d t) {c : Call relations}
    (hc : c.readsWindow driving = false) : ReadSoFar b plan maxOffset driving n d (t ++ [c]) where
  toReadsWindows := h.toReadsWindows.append hc
  cursor_eq := h.cursor_eq
  open_full := by
    intro hopen front c' back hsplit hreads
    rcases split_append_singleton hsplit with ⟨-, rfl, -⟩ | ⟨rest, hrest, -⟩
    · rw [hc] at hreads
      cases hreads
    · exact h.open_full hopen front c' rest hrest hreads

/-- A window that is left starts at its place, as words suffice below the greatest offset. -/
theorem ReadSoFar.window_eq (h : ReadSoFar b plan maxOffset driving n d t)
    (hlimit : plan.limit.toNat ≠ 0)
    (hn : n < (Discovery.start plan.limit maxOffset).cursor.windowsLeft) :
    d.cursor.size = plan.limit ∧ d.cursor.offset.toNat = n * plan.limit.toNat ∧
      n * plan.limit.toNat < maxOffset.toNat := by
  have hsize : (Cursor.start plan.limit maxOffset).size = plan.limit :=
    Page.atLeastOne_of_ne_zero hlimit
  have hbelow := (Discovery.lt_windowsLeft_iff maxOffset n).1 hn
  rw [Discovery.rowsIn_eq hlimit] at hbelow
  have hoffset := Cursor.toNat_offset_iterate_advance plan.limit maxOffset (n := n)
  rw [hsize] at hoffset
  rw [h.cursor_eq, Cursor.size_iterate_advance]
  exact ⟨hsize, hoffset (Nat.lt_trans hbelow maxOffset.toNat_lt), hbelow⟩

/-- A window is read only if all before it were full. -/
theorem ReadSoFar.read (h : ReadSoFar b plan maxOffset driving n d t)
    (hlimit : plan.limit.toNat ≠ 0) (hopen : d.exhausted = false)
    (hn : n < (Discovery.start plan.limit maxOffset).cursor.windowsLeft) :
    ReadsWindows b plan maxOffset driving (n + 1) (t ++ [d.windowCall plan driving]) := by
  obtain ⟨hsize, hoffset, hbelow⟩ := h.window_eq hlimit hn
  have hreads := readsWindow_windowCall plan driving d
  refine ⟨?_, fun k hk => ?_, ?_⟩
  · rw [List.filter_append, List.map_append, h.consecutive, List.range_succ, List.map_append,
      List.filter_cons_of_pos hreads]
    simp [Discovery.windowCall, Discovery.windowRequest, Cursor.window, hsize, hoffset]
  · rcases Nat.lt_succ_iff_lt_or_eq.1 hk with hk | rfl
    · exact h.below k hk
    · exact hbelow
  · rintro front c back hsplit hc ⟨later, hlater, -⟩
    rcases split_append_singleton hsplit with ⟨-, -, rfl⟩ | ⟨rest, hrest, -⟩
    · cases hlater
    · exact h.open_full hopen front c rest hrest hc

/-! ## Windows along a run -/

variable (narrowing : List (RelationId relations))

theorem ReadSoFar.readWindow_wp (h : ReadSoFar b plan maxOffset driving n d t)
    (hlimit : plan.limit.toNat ≠ 0) (hopen : d.exhausted = false)
    (hn : n < (Discovery.start plan.limit maxOffset).cursor.windowsLeft) :
    (d.readWindow plan driving narrowing).wp b t fun res t' =>
      ReadsWindows b plan maxOffset driving (n + 1) t' ∧
        ∀ d', res = .ok d' → ReadSoFar b plan maxOffset driving (n + 1) d' t' := by
  have hwindow := h.read hlimit hopen hn
  refine Fetch.wp_mono (Discovery.readWindow_wp plan driving narrowing d) ?_
  rintro res _ ⟨calls, rfl, hcalls, hres⟩
  have hothers : ∀ c ∈ calls, c.readsWindow driving = false := fun c hc =>
    (hcalls c hc).not_readsWindow (fun _ => rfl) driving
  rw [List.append_cons]
  refine ⟨Fetch.stable_append (fun _ _ hc h => h.append hc) hothers hwindow, fun d' hd' => ?_⟩
  obtain ⟨hcursor, page, hpage, hexhausted⟩ := hres d' hd'
  refine Fetch.stable_append (fun _ _ hc h => h.append hc) hothers
    { toReadsWindows := hwindow
      cursor_eq := ?_
      open_full := fun hopen' front c back hsplit hc => ?_ }
  · rw [hcursor, h.cursor_eq, Function.iterate_succ_apply']
  · rcases split_append_singleton hsplit with ⟨rfl, rfl, -⟩ | ⟨rest, hrest, -⟩
    · refine ⟨page, hpage, ?_⟩
      rw [hexhausted, decide_eq_false_iff_not, (h.window_eq hlimit hn).1] at hopen'
      exact Nat.le_of_not_lt hopen'
    · exact h.open_full hopen front c rest hrest hc

variable {narrowing}

theorem readAll_wp (hlimit : plan.limit.toNat ≠ 0) {left : Nat}
    (h : ReadSoFar b plan maxOffset driving n d t)
    (hleft : n + left ≤ (Discovery.start plan.limit maxOffset).cursor.windowsLeft) :
    (d.readAll plan driving narrowing left).wp b t fun _ t' =>
      ∃ m ≤ n + left, ReadsWindows b plan maxOffset driving m t' := by
  induction left generalizing n d t with
  | zero => exact Fetch.wp_pure ⟨n, Nat.le_refl n, h.toReadsWindows⟩
  | succ left ih =>
    unfold Discovery.readAll
    split
    · exact Fetch.wp_pure ⟨n, Nat.le_add_right .., h.toReadsWindows⟩
    · next hopen =>
      refine Fetch.wp_bind
        (h.readWindow_wp narrowing hlimit (Bool.eq_false_iff.2 hopen) (by omega))
        (fun d' t' hread => ?_) fun e t' hread => ⟨n + 1, by omega, hread.1⟩
      refine Fetch.wp_mono (ih (hread.2 d' rfl) (by omega)) fun _ _ hend => ?_
      obtain ⟨m, hm, hreads⟩ := hend
      exact ⟨m, by omega, hreads⟩

theorem ReadSoFar.settle_wp {g : Gathering}
    (h : ReadSoFar b plan maxOffset driving n g.discovery t) :
    (settle plan driving g).wp b t fun res t' =>
      ReadsWindows b plan maxOffset driving n t' ∧
        ∀ g', res = .ok g' → ReadSoFar b plan maxOffset driving n g'.discovery t' := by
  have hsends : Fetch.Sends b (fun c => c.readsWindow driving = false) (settle plan driving g) :=
    sends_settle plan driving (fun _ _ => rfl) g
  have hreads := hsends.preserves (fun _ _ hc h => h.append hc) h
  have hsame := returns_settle plan driving g
  refine Fetch.wp_mono (Fetch.wp_and hreads hsame.wp) fun res t' hboth => ?_
  exact ⟨hboth.1.toReadsWindows, fun g' hg' => hboth.2 g' hg' ▸ hboth.1⟩

theorem gather_wp (hlimit : plan.limit.toNat ≠ 0) {target left wanted : Nat} {g : Gathering}
    (h : ReadSoFar b plan maxOffset driving n g.discovery t)
    (hleft : n + left ≤ (Discovery.start plan.limit maxOffset).cursor.windowsLeft) :
    (gather plan driving narrowing target left wanted g).wp b t fun _ t' =>
      ∃ m ≤ n + left, ReadsWindows b plan maxOffset driving m t' := by
  induction left generalizing n wanted g t with
  | zero => exact Fetch.wp_mono h.settle_wp fun _ _ hreads => ⟨n, Nat.le_refl n, hreads.1⟩
  | succ left ih =>
    -- a window read leads to the hypothesis of the induction, whatever is gathered with it
    have hnext {g : Gathering} {t : List (Call relations)} {wanted : Nat}
        (h : ReadSoFar b plan maxOffset driving n g.discovery t)
        (hopen : g.discovery.exhausted = false) :
        (g.discovery.readWindow plan driving narrowing >>= fun d =>
          gather plan driving narrowing target left wanted { g with discovery := d }).wp b t
            fun _ t' => ∃ m ≤ n + (left + 1), ReadsWindows b plan maxOffset driving m t' := by
      refine Fetch.wp_bind (h.readWindow_wp narrowing hlimit hopen (by omega))
        (fun d t' hread => ?_) fun e t' hread => ⟨n + 1, by omega, hread.1⟩
      refine Fetch.wp_mono (ih (g := ⟨d, _, _⟩) (hread.2 d rfl) (by omega)) fun _ _ hend => ?_
      obtain ⟨m, hm, hreads⟩ := hend
      exact ⟨m, by omega, hreads⟩
    unfold gather
    split
    · next hwanted =>
      simp only [Bool.and_eq_true, Bool.not_eq_true'] at hwanted
      exact hnext h hwanted.2
    · refine Fetch.wp_bind h.settle_wp (fun g' t' hsettled => ?_) fun e t' hsettled =>
        ⟨n, Nat.le_add_right .., hsettled.1⟩
      split
      · exact Fetch.wp_pure ⟨n, Nat.le_add_right .., hsettled.1⟩
      · next hmissing =>
        simp only [Bool.or_eq_true, not_or, Bool.not_eq_true] at hmissing
        exact hnext (hsettled.2 g' rfl) hmissing.1

/-! ## Discovery is bounded -/

/-- What discovery does on a plan with one backend. -/
structure BoundedDiscovery (b : Backend relations) (plan : Plan relations) (limits : Limits)
    (driving : RelationId relations) (narrowing : List (RelationId relations)) : Prop where
  /-- The loops stop, and the page is what they lead to. -/
  stops : ∃ turns, relationFirstIn plan limits driving narrowing turns = do
    let page ← relationFirst plan limits driving narrowing
    return some page
  /-- The windows read are consecutive, below the greatest offset and follow full ones; their
  number is limited unless the root orders the page. -/
  windows : ∃ n,
    ReadsWindows b plan limits.maxOffset driving n
      (relationFirst plan limits driving narrowing b []).2 ∧
    (plan.isRootOrdered = false → n ≤ iterations plan limits)
  /-- What else the driving relation is asked are the rows of keys. -/
  others : ∀ c ∈ (relationFirst plan limits driving narrowing b []).2,
    c.source = .relation driving → c.readsWindow driving = true ∨
      c.Asks plan.routing.discoveryRequest narrowing ∨
        c.Asks plan.routing.hydrationRequest plan.hydrated
  /-- A round of the loop that follows another starts with a window, and the number of roots that
  are missing and of the keys to wait for are words. -/
  resumes : ∀ s t s' t',
    Fetch.Reaches (Scan.turn plan driving narrowing (target plan) (iterations plan limits)) b
      (.start plan limits) s t →
    s.reads (iterations plan limits) = false →
    Scan.turn plan driving narrowing (target plan) (iterations plan limits) s b t =
      (.ok (.inl s'), t') →
    Scan.Resumes plan driving narrowing (target plan) (iterations plan limits) s' b t'

theorem iterations_le (hlimit : plan.limit.toNat ≠ 0) (limits : Limits) :
    windowBudget limits (target plan) (Discovery.start plan.limit limits.maxOffset).cursor ≤
      iterations plan limits := by
  rw [← left_start hlimit]
  exact Nat.min_le_left ..

/-- Computations that read no window leave the windows read as they are. -/
theorem wp_bind_of_reads {α β : Type} {x : Fetch relations α} {f : α → Fetch relations β}
    {P : Nat → Prop}
    (hx : x.wp b t fun _ t' => ∃ n, ReadsWindows b plan maxOffset driving n t' ∧ P n)
    (hf : ∀ a, Fetch.Sends b (fun c => c.readsWindow driving = false) (f a)) :
    (x >>= f).wp b t fun _ t' => ∃ n, ReadsWindows b plan maxOffset driving n t' ∧ P n :=
  Fetch.wp_bind hx
    (fun a _ hreads => (hf a).preserves
      (fun _ _ hc ⟨n, hreads, hn⟩ => ⟨n, hreads.append hc, hn⟩) hreads)
    fun _ _ hreads => hreads

/-- Before anything is attached, all windows are read. -/
theorem discoveredRoots_wp (hlimit : plan.limit.toNat ≠ 0) (limits : Limits) :
    (discoveredRoots plan limits driving narrowing).wp b [] fun _ t =>
      ∃ n, ReadsWindows b plan limits.maxOffset driving n t ∧
        (plan.isRootOrdered = false → n ≤ iterations plan limits) := by
  have hstart : ReadSoFar b plan limits.maxOffset driving 0
      (.start plan.limit limits.maxOffset) [] := .start
  unfold discoveredRoots
  split
  · next hroot =>
    refine wp_bind_of_reads ?_ (sends_orderedRoots (fun _ _ => rfl) rfl)
    refine Fetch.wp_mono (readAll_wp hlimit hstart (Nat.le_of_eq (Nat.zero_add _))) ?_
    rintro _ _ ⟨n, -, hreads⟩
    refine ⟨n, hreads, fun hgathered => ?_⟩
    rw [hroot] at hgathered
    cases hgathered
  · have hbudget : 0 + windowBudget limits (target plan)
        (Discovery.start plan.limit limits.maxOffset).cursor ≤
          (Discovery.start plan.limit limits.maxOffset).cursor.windowsLeft := by
      rw [Nat.zero_add]
      exact Nat.min_le_right ..
    refine wp_bind_of_reads ?_ (sends_gatheredRoots rfl)
    refine Fetch.wp_mono (gather_wp (g := ⟨_, [], 0⟩) hlimit hstart hbudget) ?_
    rintro _ _ ⟨n, hn, hreads⟩
    rw [Nat.zero_add] at hn
    exact ⟨n, hreads, fun _ => Nat.le_trans hn (iterations_le hlimit limits)⟩

/-- Attaching relations reads no further window. -/
theorem relationFirst_wp (hlimit : plan.limit.toNat ≠ 0) (limits : Limits) :
    (relationFirst plan limits driving narrowing).wp b [] fun _ t =>
      ∃ n, ReadsWindows b plan limits.maxOffset driving n t ∧
        (plan.isRootOrdered = false → n ≤ iterations plan limits) := by
  rw [relationFirst_eq]
  refine wp_bind_of_reads (discoveredRoots_wp hlimit limits) (sends_finish fun c hc => ?_)
  exact hc.not_readsWindow (fun _ => rfl) driving

/-- Whatever the providers answer, discovery is bounded. A plan that was made has a limit. -/
theorem boundedDiscovery (hlimit : plan.limit.toNat ≠ 0) (b : Backend relations) (limits : Limits)
    (driving : RelationId relations) (narrowing : List (RelationId relations)) :
    BoundedDiscovery b plan limits driving narrowing where
  stops := ⟨_, relationFirstIn_eq driving narrowing hlimit (Nat.le_refl _)⟩
  windows := relationFirst_wp hlimit limits
  others := by
    obtain ⟨⟨calls, ht, hsent⟩, -⟩ := sends_relationFirst b plan limits driving narrowing []
    intro c hc hsource
    rw [ht, List.nil_append] at hc
    cases hsent c hc with
    | window w => exact .inl (by simp [Call.readsWindow, Discovery.windowRequest])
    | narrow h => exact .inr (.inl h)
    | hydrate h => exact .inr (.inr h)
    | fetch => cases hsource
    | page => cases hsource
    | total => cases hsource
  resumes s t s' t' hs hreads hturn := Scan.resumes (Nat.le_refl _) hs hreads hturn

end Execution

namespace Shop

open Execution

/-- Every window of orders is full, with an order of a customer who does not exist. -/
def endless : Backend [orders] where
  getMany _ source _ :=
    match source with
    | .root => .ok (.empty 0 1)
    | .relation _ => .ok (.ofWindow [order 1 7] Word.greatest 0 1)
  getOne _ _ _ := .error (.failure (.notFound "customer"))

/-- The one relation of the orders. -/
abbrev theOrders : RelationId [orders] := theRelation

def endlessPlan : Plan [orders] where
  routing := .ofRequest _ { Request.empty with filters := [priced orders] }
  sorts := ⟨[], []⟩
  strategy := .relationFirst theOrders []
  hydrated := [theOrders]
  limit := 1
  offset := 0

/-- The window that the page needs is read, and three more in which its root may still be named. -/
theorem boundedDiscovery_endless :
    BoundedDiscovery endless endlessPlan ⟨3, 100, 10, true⟩ theOrders [] ∧
      ((relationFirst endlessPlan ⟨3, 100, 10, true⟩ theOrders [] endless []).2.countP
        (·.readsWindow theOrders)) = 4 :=
  ⟨boundedDiscovery (by decide) endless ⟨3, 100, 10, true⟩ theOrders [], by cbv⟩

end Shop

end FederatedJoin
