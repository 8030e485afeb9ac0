-- SUMMARY: Checking sums takes one window away from the answers of a federation over collections, and changes nothing else.
import FederatedJoin.Proofs.PageNumbers
import FederatedJoin.Proofs.WindowReads

/-!
# Checked sums

Providers check their sums too, so a request could end in any of the calls that
it leads to, or with its own page. A run whose sums are checked goes along with
the one whose sums are not, until a sum overflows. No sum does before the page's
own window: discovery reads windows below the greatest offset, and every other
request starts at its first row. So the only answers that differ are those for
the window of which the page has no number.
-/

namespace FederatedJoin

/-! ## Runs until an overflow -/

/-- The second backend answers like the first, as long as no sum overflows. -/
structure Backend.Checks {relations : List Relation} (b checked : Backend relations) : Prop where
  getMany : ∀ t source r, checked.getMany t source r = b.getMany t source r ∨
    checked.getMany t source r = .error .overflow
  getOne : ∀ t source r, checked.getOne t source r = b.getOne t source r

namespace Fetch

variable {relations : List Relation} {α β : Type} {b checked : Backend relations}

/-- With the second backend the computation does what it does with the first, or ends at an
overflow. -/
def GoesAlong (b checked : Backend relations) (x : Fetch relations α) : Prop :=
  ∀ t, x checked t = x b t ∨ (x checked t).1 = .error .overflow

theorem goesAlong_pure (a : α) : GoesAlong b checked (pure a : Fetch relations α) :=
  fun _ => .inl rfl

theorem goesAlong_getMany (h : b.Checks checked) (source : Source relations) (r : Request) :
    GoesAlong b checked (getMany source r) := by
  intro t
  unfold getMany
  rcases h.getMany t source r with hsame | hoverflow
  · rw [hsame]
    exact .inl rfl
  · rw [hoverflow]
    exact .inr rfl

theorem getOne_of_checks (h : b.Checks checked) (source : Source relations) (r : Request) :
    getOne source r checked = getOne source r b := by
  funext t
  unfold getOne
  rw [h.getOne]

theorem GoesAlong.bind {x : Fetch relations α} {f : α → Fetch relations β}
    (hx : GoesAlong b checked x) (hf : ∀ a, GoesAlong b checked (f a)) :
    GoesAlong b checked (x >>= f) := by
  intro t
  rcases hx t with hsame | hoverflow
  · rw [bind_apply, bind_apply, hsame]
    cases x b t with
    | mk res t' =>
      cases res with
      | ok a => exact hf a t'
      | error e => exact .inl rfl
  · rw [bind_of_error (Prod.ext hoverflow rfl)]
    exact .inr rfl

end Fetch

section Runs

variable {relations : List Relation} {b checked : Backend relations} {plan : Plan relations}
  {driving : RelationId relations} {narrowing : List (RelationId relations)}

open Fetch

theorem Discovery.goesAlong_narrow (h : b.Checks checked) (routing : Routing relations)
    (ids : List (RelationId relations)) (keys : List JoinKey) :
    GoesAlong b checked (narrow routing ids keys) := by
  induction ids generalizing keys with
  | nil => exact goesAlong_pure keys
  | cons id rest ih =>
    unfold narrow
    split
    · exact goesAlong_pure []
    · exact (goesAlong_getMany h _ _).bind fun _ => ih _

theorem Discovery.goesAlong_readWindow (h : b.Checks checked) (d : Discovery) :
    GoesAlong b checked (d.readWindow plan driving narrowing) :=
  (goesAlong_getMany h _ _).bind fun _ =>
    (goesAlong_narrow h _ _ _).bind fun _ => goesAlong_pure _

theorem Discovery.goesAlong_readAll (h : b.Checks checked) (left : Nat) (d : Discovery) :
    GoesAlong b checked (d.readAll plan driving narrowing left) := by
  induction left generalizing d with
  | zero => exact goesAlong_pure d
  | succ left ih =>
    unfold readAll
    split
    · exact goesAlong_pure d
    · exact (goesAlong_readWindow h d).bind ih

namespace Execution

theorem goesAlong_settle (h : b.Checks checked) (g : Gathering) :
    GoesAlong b checked (settle plan driving g) := by
  unfold settle
  split
  · exact goesAlong_pure g
  · exact (goesAlong_getMany h _ _).bind fun _ => goesAlong_pure _

theorem goesAlong_gather (h : b.Checks checked) (target left wanted : Nat) (g : Gathering) :
    GoesAlong b checked (gather plan driving narrowing target left wanted g) := by
  induction left generalizing wanted g with
  | zero => exact goesAlong_settle h g
  | succ left ih =>
    unfold gather
    split
    · exact (Discovery.goesAlong_readWindow h _).bind fun _ => ih _ _
    · refine (goesAlong_settle h g).bind fun g => ?_
      split
      · exact goesAlong_pure g
      · exact (Discovery.goesAlong_readWindow h _).bind fun _ => ih _ _

theorem goesAlong_rootTotal (h : b.Checks checked) :
    GoesAlong b checked (rootTotal plan) := by
  unfold rootTotal
  split
  · exact (goesAlong_getMany h _ _).bind fun _ => goesAlong_pure _
  · exact goesAlong_pure _

theorem goesAlong_orderedRoots (h : b.Checks checked) (d : Discovery) :
    GoesAlong b checked (orderedRoots plan driving d) := by
  unfold orderedRoots
  split
  · exact goesAlong_pure _
  · refine (goesAlong_getMany h _ _).bind fun page => ?_
    split
    · exact (goesAlong_pure _).bind fun _ => goesAlong_pure _
    · exact (goesAlong_rootTotal h).bind fun _ => goesAlong_pure _

theorem goesAlong_gatheredRoots (h : b.Checks checked) (g : Gathering) :
    GoesAlong b checked (gatheredRoots plan g) := by
  unfold gatheredRoots
  split
  · exact goesAlong_pure _
  · exact (goesAlong_rootTotal h).bind fun _ => goesAlong_pure _

end Execution

theorem Hydration.goesAlong_fetchAll (h : b.Checks checked) (tasks : List (Task relations)) :
    GoesAlong b checked (fetchAll tasks) := by
  induction tasks with
  | nil => exact goesAlong_pure []
  | cons task rest ih =>
    exact (goesAlong_getMany h _ _).bind fun _ => ih.bind fun _ => goesAlong_pure _

theorem Hydration.goesAlong_hydrate (h : b.Checks checked) (roots : List Record) :
    GoesAlong b checked (hydrate plan roots) :=
  (goesAlong_fetchAll h _).bind fun _ => goesAlong_pure _

theorem Execution.goesAlong_pageOfPlan (h : b.Checks checked) (limits : Limits) :
    GoesAlong b checked (pageOfPlan plan limits) := by
  have hfinish (found : List Record × UInt64) : GoesAlong b checked (finish plan found) :=
    (Hydration.goesAlong_hydrate h found.1).bind fun _ => goesAlong_pure _
  rw [pageOfPlan_eq]
  refine GoesAlong.bind ?_ hfinish
  unfold unattached
  cases plan.strategy with
  | rootFirst => exact (goesAlong_getMany h _ _).bind fun _ => goesAlong_pure _
  | relationFirst driving narrowing =>
    show GoesAlong b checked (discoveredRoots plan limits driving narrowing)
    unfold discoveredRoots
    split
    · exact (Discovery.goesAlong_readAll h _ _).bind (goesAlong_orderedRoots h)
    · exact (goesAlong_gather h _ _ _ _).bind (goesAlong_gatheredRoots h)

end Runs

/-! ## The windows that are asked for -/

/-- The call's window has a page number, because it starts below the greatest word. -/
def Call.StartsBelow {relations : List Relation} (c : Call relations) : Prop :=
  c.request.resolvedOffset.toNat < 18446744073709551615

theorem Call.startsBelow_of_zero {relations : List Relation} {c : Call relations}
    (h : c.request.resolvedOffset = 0) : c.StartsBelow := by
  rw [StartsBelow, h]
  decide

namespace Execution

variable {relations : List Relation} {b : Backend relations} {plan : Plan relations}

/-- The call is for the window of the plan's page. -/
def AsksPage (plan : Plan relations) (c : Call relations) : Prop :=
  c.request.resolvedOffset = plan.offset ∧ c.request.limit = some plan.limit

theorem startsBelow_of_asks {request : RelationId relations → Request}
    (hlimit : ∀ id, (request id).limit = none) (hoffset : ∀ id, (request id).offset = none)
    {ids : List (RelationId relations)} {c : Call relations} (h : c.Asks request ids) :
    c.StartsBelow := by
  cases h with
  | keys id keys hid hkeys =>
    apply Call.startsBelow_of_zero
    simp [Request.resolvedOffset, Request.constrainKeys, Request.constrain, hlimit, hoffset]

/-- The windows of discovery start below the greatest offset, and other requests at their first
row, the one for the page apart. -/
theorem startsBelow_of_sent {driving : RelationId relations}
    {narrowing : List (RelationId relations)} {maxOffset : UInt64} {n : Nat}
    {t : List (Call relations)} (hreads : ReadsWindows b plan maxOffset driving n t)
    {c : Call relations} (hc : c ∈ t) (hsent : Sent plan driving narrowing c) :
    c.StartsBelow ∨ AsksPage plan c := by
  cases hsent with
  | window w =>
    have hwindow : (some w.limit, some w.offset.toNat) ∈
        (List.range n).map fun k => (some plan.limit, some (k * plan.limit.toNat)) := by
      rw [← hreads.consecutive]
      exact List.mem_map.2 ⟨_, List.mem_filter.2 ⟨hc, by
        simp [Call.readsWindow, Discovery.windowRequest]⟩, rfl⟩
    obtain ⟨k, hk, heq⟩ := List.mem_map.1 hwindow
    have hbelow := hreads.below k (List.mem_range.1 hk)
    have hoffset : k * plan.limit.toNat = w.offset.toNat := Option.some.inj (congrArg Prod.snd heq)
    have hword := maxOffset.toNat_lt
    refine .inl (?_ : w.offset.toNat < 18446744073709551615)
    omega
  | narrow h => exact .inl (startsBelow_of_asks (fun _ => rfl) (fun _ => rfl) h)
  | hydrate h => exact .inl (startsBelow_of_asks (fun _ => rfl) (fun _ => rfl) h)
  | fetch keys h => exact .inl (Call.startsBelow_of_zero rfl)
  | page keys h => exact .inr ⟨rfl, rfl⟩
  | total => exact .inl (Call.startsBelow_of_zero rfl)

/-- Before its own page, a request asks for windows that start below the greatest word, and it
fails with a call only. -/
theorem calls_of_pageOfPlan (hlimit : plan.limit.toNat ≠ 0) (b : Backend relations)
    (limits : Limits) : (pageOfPlan plan limits).wp b [] fun res t =>
      (∀ c ∈ t, c.StartsBelow ∨ AsksPage plan c) ∧
        ∀ e, res = .error e → Fetch.FailedLast b e t := by
  cases hstrategy : plan.strategy with
  | rootFirst =>
    have hsends : Fetch.Sends b (fun c => c.StartsBelow ∨ AsksPage plan c)
        (unattached plan limits >>= finish plan) := by
      unfold unattached
      rw [hstrategy]
      refine ((Fetch.sends_getMany (.inr ⟨rfl, rfl⟩)).bind fun _ => Fetch.sends_pure _).bind
        (sends_finish fun c hc => ?_)
      exact .inl (startsBelow_of_asks (fun _ => rfl) (fun _ => rfl) hc)
    rw [pageOfPlan_eq]
    refine Fetch.wp_mono (hsends []) fun res t hcalls => ?_
    obtain ⟨⟨calls, rfl, hcalls⟩, hfails⟩ := hcalls
    exact ⟨hcalls, hfails⟩
  | relationFirst driving narrowing =>
    unfold pageOfPlan
    rw [hstrategy]
    refine Fetch.wp_mono (Fetch.wp_and (relationFirst_wp hlimit limits)
      (sends_relationFirst b plan limits driving narrowing [])) fun res t hboth => ?_
    obtain ⟨⟨n, hreads, -⟩, ⟨calls, rfl, hsent⟩, hfails⟩ := hboth
    exact ⟨fun c hc => startsBelow_of_sent hreads hc (hsent c hc), hfails⟩

end Execution

/-! ## Collections whose sums are checked -/

namespace Collection

/-- Without an overflow the checked page is the same page. -/
theorem getMany?_eq_some {c : Collection} {q : Request} (h : c.getMany? q ≠ none) :
    c.getMany? q = some (c.getMany q) := by
  obtain ⟨page, hpage⟩ := Option.ne_none_iff_exists'.1 h
  rw [hpage, Page.eq_ofWindow_of_ofWindow? hpage]
  rfl

end Collection

namespace Federation

open Execution Fetch

variable {f : Federation Collection} {r : Request} {plan : Plan f.schema.relations}

/-- The page that a request gets where sums are checked. -/
def checkedAnswer (f : Federation Collection) (r : Request) : Except Failure Page :=
  ((f.getManyChecked r).run f.checkedBackend).1

variable (f) in
theorem checks_backend : f.backend.Checks f.checkedBackend where
  getMany t source q := by
    cases hpage : (f.provider source).getMany? q with
    | none => exact .inr (by simp only [checkedBackend, hpage])
    | some page =>
      have hsame := Collection.getMany?_eq_some (c := f.provider source) (q := q) (by simp [hpage])
      exact .inl (by simp only [checkedBackend, hsame, backend])
  getOne _ _ _ := rfl

/-- A collection overflows at the one window of which the page has no number. -/
theorem unnumbered_of_checkedBackend {t : List (Call f.schema.relations)}
    {source : Source f.schema.relations} {q : Request} {e : Fault}
    (h : f.checkedBackend.getMany t source q = .error e) :
    Page.Unnumbered q.resolvedOffset.toNat
      (max (q.limit.getD ((f.provider source).getMany q).total).toNat 1) := by
  apply (Page.ofWindow?_eq_none_iff _ _ _ _).1
  show (f.provider source).getMany? q = none
  simp only [checkedBackend] at h
  split at h
  · cases h
  · assumption

/-- A run that fails on checked collections has asked for a window of which the page has no
number. -/
theorem exists_unnumbered_of_failedLast {e : Failure} {t : List (Call f.schema.relations)}
    (h : FailedLast f.checkedBackend e t) : ∃ c ∈ t, ¬ c.StartsBelow ∧
      Page.Unnumbered c.request.resolvedOffset.toNat
        (max (c.request.limit.getD ((f.provider c.source).getMany c.request).total).toNat 1) := by
  obtain ⟨front, c, p, rfl, hfails, -⟩ := h
  have hlast := unnumbered_of_checkedBackend hfails
  refine ⟨c, by simp, ?_, hlast⟩
  rw [Call.StartsBelow, hlast.1]
  exact Nat.lt_irrefl _

theorem not_failedLast_backend {e : Failure} {t : List (Call f.schema.relations)} :
    ¬ FailedLast f.backend e t := by
  rintro ⟨front, c, p, -, hfails, -⟩
  cases hfails

/-- Away from the window of which the page has no number, no sum overflows on the way, and the
request gets the page that it gets without checks. -/
theorem checkedAnswer_of_numbered
    (h : ¬ Page.Unnumbered (r.startFor (r.pageSize f.limits)) (r.pageSize f.limits)) :
    f.checkedAnswer r = f.answer r := by
  unfold checkedAnswer answer
  rw [getManyChecked_of_numbered h]
  cases hplan : f.plan r with
  | error e =>
    rw [getMany_of_error hplan]
    rfl
  | ok plan =>
    rw [getMany_of_plan hplan]
    rcases goesAlong_pageOfPlan (checks_backend f) f.limits [] with hsame | hoverflow
    · exact congrArg Prod.fst hsame
    · obtain ⟨hcalls, hfails⟩ := calls_of_pageOfPlan (Plan.toNat_limit_ne_zero hplan)
        f.checkedBackend f.limits
      obtain ⟨c, hc, hlate, hunnumbered⟩ := exists_unnumbered_of_failedLast (hfails _ hoverflow)
      obtain ⟨hstart, hlimit⟩ := (hcalls c hc).resolve_left hlate
      obtain ⟨hoffset, hsize⟩ := window_of_plan hplan
      rw [hstart, hlimit, Option.getD_some, hoffset, hsize] at hunnumbered
      exact absurd hunnumbered h

/-- At the window of which the page has no number, every accepted request overflows. -/
theorem checkedAnswer_of_unnumbered (hplan : f.plan r = .ok plan)
    (h : Page.Unnumbered (r.startFor (r.pageSize f.limits)) (r.pageSize f.limits)) :
    f.checkedAnswer r = .error .overflow := by
  unfold checkedAnswer
  rw [getManyChecked_of_plan hplan]
  unfold Fetch.run
  have hgoes : GoesAlong f.backend f.checkedBackend (pageOfPlan plan f.limits) :=
    goesAlong_pageOfPlan (checks_backend f) f.limits
  rcases hgoes [] with hsame | hoverflow
  · obtain ⟨-, hfails⟩ := calls_of_pageOfPlan (Plan.toNat_limit_ne_zero hplan) f.backend f.limits
    cases hpage : (pageOfPlan plan f.limits f.backend []).1 with
    | error e => exact absurd (hfails e hpage) not_failedLast_backend
    | ok page =>
      rw [bind_of_ok (hsame.trans (Prod.ext hpage rfl)), checkedPage_of_unnumbered hplan page h]
      rfl
  · rw [bind_of_error (Prod.ext hoverflow rfl)]

/-- A computation that only asks for windows below the greatest word does not see the checks. -/
theorem eq_of_startsBelow {α : Type} {x : Fetch f.schema.relations α}
    (hx : GoesAlong f.backend f.checkedBackend x) (hsends : Sends f.checkedBackend
      (·.StartsBelow) x) {t : List (Call f.schema.relations)} (ht : ∀ c ∈ t, c.StartsBelow) :
    x f.checkedBackend t = x f.backend t := by
  refine (hx t).resolve_right fun hoverflow => ?_
  obtain ⟨⟨calls, hcalls, hbelow⟩, hfails⟩ := hsends t
  obtain ⟨c, hc, hlate, -⟩ := exists_unnumbered_of_failedLast (hfails _ hoverflow)
  rw [hcalls] at hc
  exact hlate ((List.mem_append.1 hc).elim (ht c) (hbelow c))

/-- A record is fetched first, whose call is answered alike, and what follows does not see the
checks. -/
theorem getOne_bind_of_startsBelow {α : Type} {source : Source f.schema.relations} {q : Request}
    (hq : q.resolvedOffset = 0) {x : Record → Fetch f.schema.relations α}
    (hx : ∀ record, GoesAlong f.backend f.checkedBackend (x record))
    (hsends : ∀ record, Sends f.checkedBackend (·.StartsBelow) (x record)) :
    (Fetch.getOne source q >>= x).run f.checkedBackend =
      (Fetch.getOne source q >>= x).run f.backend := by
  have htrace : (Fetch.getOne source q f.backend []).2 = [⟨source, .getOne, q⟩] := rfl
  unfold Fetch.run
  rw [bind_apply, bind_apply, getOne_of_checks (checks_backend f)]
  cases hanswer : Fetch.getOne source q f.backend [] with
  | mk res t =>
    rw [hanswer] at htrace
    cases htrace
    cases res with
    | error e => rfl
    | ok record =>
      have hfirst : Call.StartsBelow ⟨source, .getOne, q⟩ := Call.startsBelow_of_zero hq
      exact eq_of_startsBelow (hx record) (hsends record) (List.forall_mem_singleton.2 hfirst)

/-- Single records are the same, whether sums are checked or not. -/
theorem getOne_checkedBackend (f : Federation Collection) (r : Request) :
    (f.getOne r).run f.checkedBackend = (f.getOne r).run f.backend := by
  cases hplan : f.plan r with
  | error e =>
    rw [getOne_of_error hplan]
    rfl
  | ok plan =>
    rw [getOne_of_plan hplan]
    refine getOne_bind_of_startsBelow rfl (fun root => ?_) fun root => ?_
    · exact (Hydration.goesAlong_hydrate (checks_backend f) [root]).bind fun _ => goesAlong_pure _
    · refine (Hydration.sends_hydrate plan (fun c hc => ?_) [root]).bind fun _ => sends_pure _
      exact startsBelow_of_asks (fun _ => rfl) (fun _ => rfl) hc

end Federation

end FederatedJoin
