-- SUMMARY: The loops of discovery turn by turn, and that they stop whatever the providers answer.
import FederatedJoin.Proofs.Calls
import FederatedJoin.Proofs.Windows

/-!
# Loops of discovery

Discovery goes on while keys are missing and a window may be read. Nothing counts
the rounds in which roots are fetched and discovery resumes, so that it stops
needs an argument: a round that resumes wants more keys than are known and starts
with another window, and windows are counted. Taken turn by turn the loops
therefore end with what `gather` and `readAll` give, whose recursion is on the
windows that are left.
-/

namespace FederatedJoin

namespace Fetch

variable {relations : List Relation} {σ ρ : Type}

/-! ## Turns -/

/-- At most `n` turns, each of which leads to another state or to the result. -/
def turns (turn : σ → Fetch relations (σ ⊕ ρ)) : Nat → σ → Fetch relations (σ ⊕ ρ)
  | 0, s => pure (.inl s)
  | n + 1, s => do
    match ← turn s with
    | .inl s => turns turn n s
    | .inr r => pure (.inr r)

/-- The states that turns lead to, with the calls made on the way. -/
inductive Reaches (turn : σ → Fetch relations (σ ⊕ ρ)) (b : Backend relations) (start : σ) :
    σ → List (Call relations) → Prop where
  | start : Reaches turn b start start []
  | next {s s' : σ} {t t' : List (Call relations)} (hs : Reaches turn b start s t)
    (hturn : turn s b t = (.ok (.inl s'), t')) : Reaches turn b start s' t'

end Fetch

variable {relations : List Relation}

namespace Discovery

variable (plan : Plan relations) (driving : RelationId relations)
  (narrowing : List (RelationId relations))

theorem returns_readWindow (d : Discovery) :
    Fetch.Returns (d.readWindow plan driving narrowing) (·.cursor = d.cursor.advance) :=
  Fetch.returns_bind fun _ => Fetch.returns_bind fun _ => Fetch.returns_pure rfl

/-- One turn of the loop that only the greatest offset bounds. -/
def turn (d : Discovery) : Fetch relations (Discovery ⊕ Discovery) :=
  if d.exhausted || d.cursor.reachedLimit then pure (.inr d)
  else do
    let d ← d.readWindow plan driving narrowing
    return .inl d

/-- A window may be read exactly if one is left. -/
theorem reachedLimit_eq_false_iff {c : Cursor} (h : c.size.toNat ≠ 0) :
    c.reachedLimit = false ↔ c.windowsLeft ≠ 0 := by
  rw [ne_eq, Cursor.windowsLeft_eq_zero_iff h, Bool.not_eq_true]

theorem turns_eq_readAll {left n : Nat} {d : Discovery} (hsize : d.cursor.size.toNat ≠ 0)
    (hleft : d.cursor.windowsLeft = left) (hn : left + 1 ≤ n) :
    Fetch.turns (turn plan driving narrowing) n d = do
      let d ← d.readAll plan driving narrowing left
      return .inr d := by
  induction left generalizing n d with
  | zero =>
    obtain ⟨n, rfl⟩ := Nat.exists_eq_add_of_le' hn
    have hlimit := (Cursor.windowsLeft_eq_zero_iff hsize).1 hleft
    simp only [Fetch.turns, turn, hlimit, Bool.or_true, if_true, pure_bind, readAll]
  | succ left ih =>
    obtain ⟨n, rfl⟩ := Nat.exists_eq_add_of_le' (Nat.le_of_add_left_le hn)
    have hlimit : d.cursor.reachedLimit = false := by
      rw [reachedLimit_eq_false_iff hsize, hleft]
      exact Nat.succ_ne_zero left
    simp only [Fetch.turns, turn, hlimit, Bool.or_false, readAll]
    split
    · simp only [pure_bind]
    · simp only [bind_assoc, pure_bind]
      have hreturns := returns_readWindow plan driving narrowing d
      refine Fetch.bind_congr_of_returns hreturns fun d' hcursor => ?_
      apply ih
      · rw [hcursor]
        exact hsize
      · rw [hcursor, Cursor.windowsLeft_advance hsize, hleft]
        rfl
      · omega

end Discovery

namespace Execution

variable (plan : Plan relations) (driving : RelationId relations)
  (narrowing : List (RelationId relations)) (target budget : Nat)

theorem returns_settle (g : Gathering) :
    Fetch.Returns (settle plan driving g) (·.discovery = g.discovery) := by
  unfold settle
  split
  · exact Fetch.returns_pure rfl
  · exact Fetch.returns_bind fun _ => Fetch.returns_pure rfl

/-- A gathering under way. -/
structure Scan where
  gathering : Gathering
  /-- How many windows were read. -/
  windows : Nat
  /-- How many keys have to be known before their roots are fetched. -/
  wanted : Nat

namespace Scan

def mayRead (s : Scan) : Bool :=
  !s.gathering.discovery.exhausted && s.windows < budget &&
    !s.gathering.discovery.cursor.reachedLimit

/-- Whether the next turn reads a window. -/
def reads (s : Scan) : Bool := s.gathering.discovery.keys.length < s.wanted && s.mayRead budget

/-- One turn: a window is read, or else the roots of the known keys are fetched, and discovery
resumes if roots are missing and windows are not. -/
def turn (s : Scan) : Fetch relations (Scan ⊕ Gathering) :=
  if s.reads budget then do
    let d ← s.gathering.discovery.readWindow plan driving narrowing
    return .inl { s with
      gathering := { s.gathering with discovery := d }
      windows := s.windows + 1 }
  else if s.gathering.discovery.keys.isEmpty then pure (.inr s.gathering)
  else do
    let g ← settle plan driving s.gathering
    if target ≤ g.found.length || !s.mayRead budget then return .inr g
    else return .inl { s with gathering := g, wanted := resumeTarget target g }

/-- How many windows may still be read. -/
def left (s : Scan) : Nat := min (budget - s.windows) s.gathering.discovery.cursor.windowsLeft

variable {budget}

theorem mayRead_iff {s : Scan} (hsize : s.gathering.discovery.cursor.size.toNat ≠ 0) :
    s.mayRead budget = true ↔ s.gathering.discovery.exhausted = false ∧ s.left budget ≠ 0 := by
  have hleft : s.left budget ≠ 0 ↔
      s.windows < budget ∧ s.gathering.discovery.cursor.windowsLeft ≠ 0 := by
    unfold left
    omega
  rw [hleft, ← Discovery.reachedLimit_eq_false_iff hsize]
  simp only [mayRead, Bool.and_eq_true, Bool.not_eq_true', decide_eq_true_eq, and_assoc]

theorem left_of_read {s : Scan} {d : Discovery}
    (hsize : s.gathering.discovery.cursor.size.toNat ≠ 0)
    (hcursor : d.cursor = s.gathering.discovery.cursor.advance) (g : Gathering) (wanted : Nat) :
    left budget ⟨{ g with discovery := d }, s.windows + 1, wanted⟩ = s.left budget - 1 := by
  simp only [left, hcursor, Cursor.windowsLeft_advance hsize]
  omega

/-- A round that resumes starts with another window. -/
theorem reads_of_resumed {s : Scan} {g : Gathering} (hg : g.discovery = s.gathering.discovery)
    (hmay : s.mayRead budget = true) (hmissing : g.found.length < target) :
    reads budget { s with gathering := g, wanted := resumeTarget target g } = true := by
  have hwanted : g.discovery.keys.length < resumeTarget target g := by
    unfold resumeTarget
    omega
  simp only [reads, mayRead, hg] at hmay hwanted ⊢
  rw [hmay, decide_eq_true hwanted]
  rfl

variable {plan driving narrowing target}

/-- Nothing is asked for while no key is known. -/
theorem settle_of_keys_nil {g : Gathering} (h : g.discovery.keys = []) :
    settle plan driving g = pure g := by
  simp only [settle, h, List.drop_nil]

/-- As long as windows are left, only the end of the rows keeps one from being read. -/
theorem mayRead_of_left {s : Scan} (hsize : s.gathering.discovery.cursor.size.toNat ≠ 0)
    (hleft : s.left budget ≠ 0) : s.mayRead budget = !s.gathering.discovery.exhausted := by
  rw [Bool.eq_iff_iff, mayRead_iff hsize]
  simp [hleft]

/-- Gathering goes on by the test of a turn. -/
theorem gather_succ {left : Nat} {s : Scan}
    (hsize : s.gathering.discovery.cursor.size.toNat ≠ 0) (hleft : s.left budget ≠ 0) :
    gather plan driving narrowing target (left + 1) s.wanted s.gathering =
      if s.reads budget then
        s.gathering.discovery.readWindow plan driving narrowing >>= fun d =>
          gather plan driving narrowing target left s.wanted { s.gathering with discovery := d }
      else
        settle plan driving s.gathering >>= fun g =>
          if g.discovery.exhausted || target ≤ g.found.length then pure g
          else g.discovery.readWindow plan driving narrowing >>= fun d =>
            gather plan driving narrowing target left (resumeTarget target g)
              { g with discovery := d } := by
  rw [gather, reads, mayRead_of_left hsize hleft]

variable (plan driving narrowing target budget) in
/-- With so many windows left, `n` turns end with what is gathered. -/
def EndsIn (left n : Nat) : Prop :=
  ∀ s : Scan, s.gathering.discovery.cursor.size.toNat ≠ 0 → s.left budget = left →
    0 < s.wanted →
    Fetch.turns (turn plan driving narrowing target budget) n s = do
      let g ← gather plan driving narrowing target left s.wanted s.gathering
      return .inr g

/-- A window that is read, whatever was found before it, leaves one window less. -/
theorem EndsIn.of_read {left n wanted : Nat}
    (h : EndsIn plan driving narrowing target budget left n) {s : Scan}
    (hsize : s.gathering.discovery.cursor.size.toNat ≠ 0) (hleft : s.left budget = left + 1)
    (g : Gathering) (hwanted : 0 < wanted) :
    (do
      let d ← s.gathering.discovery.readWindow plan driving narrowing
      Fetch.turns (turn plan driving narrowing target budget) n
        ⟨{ g with discovery := d }, s.windows + 1, wanted⟩) = do
      let d ← s.gathering.discovery.readWindow plan driving narrowing
      let g ← gather plan driving narrowing target left wanted { g with discovery := d }
      return .inr g := by
  have hreturns := Discovery.returns_readWindow plan driving narrowing s.gathering.discovery
  refine Fetch.bind_congr_of_returns hreturns fun d hcursor => h _ ?_ ?_ hwanted
  · rw [hcursor]
    exact hsize
  · rw [left_of_read hsize hcursor, hleft]
    rfl

/-- The turns end with what was gathered. A round that resumes takes two turns for one window. -/
theorem turns_eq_gather (left : Nat) {n : Nat} (hn : 2 * left + 2 ≤ n) :
    EndsIn plan driving narrowing target budget left n := by
  induction left generalizing n with
  | zero =>
    intro s hsize hleft _
    obtain ⟨n, rfl⟩ := Nat.exists_eq_add_of_le' (Nat.le_of_add_left_le hn)
    have hmay : s.mayRead budget = false := by
      rw [Bool.eq_false_iff, ne_eq, mayRead_iff hsize]
      exact fun h => h.2 hleft
    simp only [Fetch.turns, turn, reads, hmay, Bool.and_false, Bool.not_false, Bool.or_true,
      Bool.false_eq_true, if_false, if_true, gather]
    split
    · next hkeys => simp only [settle_of_keys_nil (List.isEmpty_iff.1 hkeys), pure_bind]
    · simp only [bind_assoc, pure_bind]
  | succ left ih =>
    intro s hsize hleft hwanted
    obtain ⟨n, rfl⟩ := Nat.exists_eq_add_of_le' (Nat.le_of_add_left_le hn)
    have hsome : s.left budget ≠ 0 := hleft ▸ Nat.succ_ne_zero left
    have hmay := mayRead_of_left hsize hsome
    rw [gather_succ hsize hsome, Fetch.turns, turn]
    split
    · simp only [bind_assoc, pure_bind]
      exact (ih (by omega)).of_read hsize hleft s.gathering hwanted
    · next hreads =>
      split
      · next hkeys =>
        have hnil := List.isEmpty_iff.1 hkeys
        have hexhausted : s.gathering.discovery.exhausted = true := by
          simpa [reads, hmay, hnil, hwanted] using hreads
        simp only [settle_of_keys_nil hnil, pure_bind, hexhausted, Bool.true_or, if_true]
      · simp only [bind_assoc]
        refine Fetch.bind_congr_of_returns (returns_settle plan driving s.gathering) fun g hg => ?_
        rw [hmay, hg, Bool.not_not, Bool.or_comm]
        split
        · simp only [pure_bind]
        · next hmissing =>
          -- the turn that resumes is followed by one that reads
          simp only [pure_bind, bind_assoc]
          obtain ⟨hopen, hfew⟩ : s.gathering.discovery.exhausted = false ∧
              g.found.length < target := by simpa using hmissing
          have hresumes := reads_of_resumed target hg (by rw [hmay, hopen]; rfl) hfew
          rw [Fetch.turns, turn, if_pos hresumes]
          simp only [bind_assoc, pure_bind, hg]
          refine (ih (by omega)).of_read hsize hleft g ?_
          unfold resumeTarget
          omega

/-- A turn that does not end the loop has read a window, or it resumes discovery. -/
theorem next_cases {s s' : Scan} {b : Backend relations} {t t' : List (Call relations)}
    (h : turn plan driving narrowing target budget s b t = (.ok (.inl s'), t')) :
    (s.reads budget = true ∧ ∃ d, s.gathering.discovery.readWindow plan driving narrowing b t =
        (.ok d, t') ∧ s' = ⟨{ s.gathering with discovery := d }, s.windows + 1, s.wanted⟩) ∨
      s.reads budget = false ∧ s.mayRead budget = true ∧
        ∃ g, g.discovery = s.gathering.discovery ∧ g.found.length < target ∧
          s' = { s with gathering := g, wanted := resumeTarget target g } := by
  unfold turn at h
  split at h
  · next hreads =>
    rw [Fetch.bind_apply] at h
    split at h
    · next d t'' hrun =>
      cases h
      exact .inl ⟨hreads, d, hrun, rfl⟩
    · cases h
  · next hreads =>
    split at h
    · cases h
    · rw [Fetch.bind_apply] at h
      split at h
      · next g t'' hrun =>
        split at h
        · cases h
        · next hmissing =>
          cases h
          obtain ⟨hfew, hmay⟩ : g.found.length < target ∧ s.mayRead budget = true := by
            simpa using hmissing
          exact .inr ⟨Bool.eq_false_iff.2 hreads, hmay, g,
            returns_settle plan driving s.gathering b t g _ hrun, hfew, rfl⟩
      · cases h

/-- A window could be read, so that none is means that enough keys are known. -/
theorem wanted_le_of_not_reads {s : Scan} (hreads : s.reads budget = false)
    (hmay : s.mayRead budget = true) : s.wanted ≤ s.gathering.discovery.keys.length := by
  rw [reads, hmay, Bool.and_true, decide_eq_false_iff_not] at hreads
  exact Nat.le_of_not_lt hreads

/-- Discovery never waits for fewer keys than there have to be roots. -/
theorem target_le_wanted {start s : Scan} {b : Backend relations} {t : List (Call relations)}
    (hstart : target ≤ start.wanted)
    (h : Fetch.Reaches (turn plan driving narrowing target budget) b start s t) :
    target ≤ s.wanted := by
  induction h with
  | start => exact hstart
  | @next s _ _ _ _ hturn ih =>
    rcases next_cases hturn with ⟨-, d, -, rfl⟩ | ⟨hreads, hmay, g, hg, -, rfl⟩
    · exact ih
    · have hknown := wanted_le_of_not_reads hreads hmay
      simp only [resumeTarget, hg]
      omega

variable (plan driving narrowing target budget) in
/-- Where discovery resumes, the next turn reads a window, and the number of missing roots and the
number of keys to wait for are words. -/
structure Resumes (s : Scan) (b : Backend relations) (t : List (Call relations)) : Prop where
  found_lt : s.gathering.found.length < target
  wanted_eq : s.wanted = resumeTarget target s.gathering
  fits : s.gathering.discovery.keys.length < 2 ^ 62 → resumeTarget target s.gathering < 2 ^ 64
  window : ∃ calls, (turn plan driving narrowing target budget s b t).2 =
    t ++ s.gathering.discovery.windowCall plan driving :: calls

theorem resumes {start s s' : Scan} {b : Backend relations} {t t' : List (Call relations)}
    (hstart : target ≤ start.wanted)
    (hs : Fetch.Reaches (turn plan driving narrowing target budget) b start s t)
    (hreads : s.reads budget = false)
    (h : turn plan driving narrowing target budget s b t = (.ok (.inl s'), t')) :
    Resumes plan driving narrowing target budget s' b t' := by
  rcases next_cases h with ⟨hread, -⟩ | ⟨-, hmay, g, hg, hfew, rfl⟩
  · rw [hreads] at hread
    cases hread
  · have hknown := wanted_le_of_not_reads hreads hmay
    have htarget := target_le_wanted hstart hs
    refine ⟨hfew, rfl, fun hkeys => ?_, ?_⟩
    · simp only [resumeTarget, hg] at hkeys ⊢
      omega
    · have hreads' := reads_of_resumed target hg hmay hfew
      have hcalls : (turn plan driving narrowing target budget
          { s with gathering := g, wanted := resumeTarget target g }).wp b t' fun _ t'' =>
            ∃ calls, t'' = t' ++ g.discovery.windowCall plan driving :: calls := by
        rw [turn, if_pos hreads']
        refine Fetch.wp_bind (Discovery.readWindow_wp plan driving narrowing g.discovery) ?_ ?_
        · rintro d _ ⟨calls, rfl, -⟩
          exact Fetch.wp_pure ⟨calls, rfl⟩
        · rintro e _ ⟨calls, rfl, -⟩
          exact ⟨calls, rfl⟩
      exact hcalls

end Scan

end Execution

/-! ## Pages -/

namespace Execution

variable (plan : Plan relations) (limits : Limits) (driving : RelationId relations)
  (narrowing : List (RelationId relations))

/-- How many windows a page may take: those that it needs itself, and those allowed for keys that
are repeated or refused. -/
def iterations : Nat :=
  min (windowsFor (Execution.target plan) plan.limit.toNat + limits.maxIterations.toNat)
    Word.greatest.toNat

def Scan.start : Scan where
  gathering := ⟨.start plan.limit limits.maxOffset, [], 0⟩
  windows := 0
  wanted := Execution.target plan

/-- The page that the loops lead to, if they stop within `n` turns. -/
def relationFirstIn (n : Nat) : Fetch relations (Option Page) :=
  if plan.isRootOrdered then do
    match ← Fetch.turns (Discovery.turn plan driving narrowing) n
      (.start plan.limit limits.maxOffset) with
    | .inl _ => return none
    | .inr d =>
      let page ← rootOrdered plan driving d
      return some page
  else do
    match ← Fetch.turns (Scan.turn plan driving narrowing (Execution.target plan)
      (iterations plan limits)) n (.start plan limits) with
    | .inl _ => return none
    | .inr g =>
      let page ← gatheredRoots plan g >>= finish plan
      return some page

variable {plan limits}

theorem left_start (hlimit : plan.limit.toNat ≠ 0) :
    (Scan.start plan limits).left (iterations plan limits) =
      windowBudget limits (Execution.target plan)
        (Discovery.start plan.limit limits.maxOffset).cursor := by
  rw [windowBudget_start hlimit, ← Discovery.windowsLeft_start hlimit, Scan.left, iterations,
    Execution.target, Word.toNat_addSat]
  rfl

/-- The loops stop after a number of turns that depends on the greatest offset alone. -/
theorem relationFirstIn_eq (hlimit : plan.limit.toNat ≠ 0) {n : Nat}
    (hn : 2 * limits.maxOffset.toNat + 2 ≤ n) :
    relationFirstIn plan limits driving narrowing n = do
      let page ← relationFirst plan limits driving narrowing
      return some page := by
  have hsize := Cursor.size_start_ne_zero plan.limit limits.maxOffset
  have hleft : (Discovery.start plan.limit limits.maxOffset).cursor.windowsLeft ≤
      limits.maxOffset.toNat := by
    rw [Discovery.windowsLeft_start hlimit]
    exact windowsFor_le hlimit _
  rw [relationFirst_eq, relationFirstIn, discoveredRoots]
  split
  · rw [Discovery.turns_eq_readAll plan driving narrowing hsize rfl (by omega)]
    simp only [bind_assoc, pure_bind, rootOrdered_eq]
  · have hwanted : 0 < (Scan.start plan limits).wanted := by
      simp only [Scan.start, Execution.target, Word.toNat_addSat]
      omega
    have hbudget : windowBudget limits (Execution.target plan)
        (Discovery.start plan.limit limits.maxOffset).cursor ≤ limits.maxOffset.toNat :=
      Nat.le_trans (Nat.min_le_right ..) hleft
    rw [Scan.turns_eq_gather _ (by omega) _ hsize (left_start hlimit) hwanted]
    simp only [bind_assoc, pure_bind]
    rfl

end Execution

end FederatedJoin
