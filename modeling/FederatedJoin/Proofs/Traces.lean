-- SUMMARY: Proof rules for what a computation has called when it ends, whatever the providers answer.
import FederatedJoin.Fetch

/-!
# Traces

The trace of a computation depends on the answers it gets, so a fact about traces
has to hold for every backend, those included whose answers change from call to
call. `Fetch.wp` says that a fact holds of the result and of the trace when the
computation ends. It has one rule for each way in which a computation is built;
after these, computations are not unfolded any more.
-/

namespace FederatedJoin

namespace Fetch

variable {relations : List Relation} {α β : Type}

/-! ## Weakest preconditions -/

/-- `Q` holds of the result and the trace that the computation ends with. -/
def wp (x : Fetch relations α) (b : Backend relations) (t : List (Call relations))
    (Q : Except Failure α → List (Call relations) → Prop) : Prop :=
  Q (x b t).1 (x b t).2

variable {b : Backend relations} {t : List (Call relations)}

theorem wp_pure {a : α} {Q : Except Failure α → List (Call relations) → Prop} (h : Q (.ok a) t) :
    (pure a : Fetch relations α).wp b t Q := h

theorem wp_mono {x : Fetch relations α} {P Q : Except Failure α → List (Call relations) → Prop}
    (hx : x.wp b t P) (h : ∀ res t', P res t' → Q res t') : x.wp b t Q := h _ _ hx

theorem wp_and {x : Fetch relations α} {P Q : Except Failure α → List (Call relations) → Prop}
    (hP : x.wp b t P) (hQ : x.wp b t Q) : x.wp b t fun res t' => P res t' ∧ Q res t' := ⟨hP, hQ⟩

theorem wp_bind {x : Fetch relations α} {f : α → Fetch relations β}
    {P : Except Failure α → List (Call relations) → Prop}
    {Q : Except Failure β → List (Call relations) → Prop} (hx : x.wp b t P)
    (hok : ∀ a t', P (.ok a) t' → (f a).wp b t' Q)
    (herror : ∀ e t', P (.error e) t' → Q (.error e) t') : (x >>= f).wp b t Q := by
  unfold wp at hx ⊢
  rw [bind_apply]
  cases hrun : x b t with
  | mk res t' =>
    rw [hrun] at hx
    cases res with
    | ok a => exact hok a t' hx
    | error e => exact herror e t' hx

theorem wp_getMany {source : Source relations} {r : Request}
    {Q : Except Failure Page → List (Call relations) → Prop}
    (hok : ∀ page, b.getMany t source r = .ok page →
      Q (.ok page) (t ++ [⟨source, .getMany, r⟩]))
    (herror : ∀ e, b.getMany t source r = .error e →
      Q (.error (.ofFault e)) (t ++ [⟨source, .getMany, r⟩])) :
    (getMany source r).wp b t Q := by
  unfold wp getMany
  cases hanswer : b.getMany t source r with
  | ok page => exact hok page hanswer
  | error e => exact herror e hanswer

/-- The rule for a call whose answer is used at once. -/
theorem wp_getMany_bind {source : Source relations} {r : Request} {f : Page → Fetch relations α}
    {Q : Except Failure α → List (Call relations) → Prop}
    (hok : ∀ page, b.getMany t source r = .ok page →
      (f page).wp b (t ++ [⟨source, .getMany, r⟩]) Q)
    (herror : ∀ e, b.getMany t source r = .error e →
      Q (.error (.ofFault e)) (t ++ [⟨source, .getMany, r⟩])) :
    (getMany source r >>= f).wp b t Q := by
  let P : Except Failure Page → List (Call relations) → Prop := fun res t' =>
    t' = t ++ [⟨source, .getMany, r⟩] ∧ res = (b.getMany t source r).mapError .ofFault
  refine wp_bind (P := P) (wp_getMany (fun page h => ⟨rfl, by rw [h]; rfl⟩)
    fun e h => ⟨rfl, by rw [h]; rfl⟩) ?_ ?_
  · rintro page _ ⟨rfl, hpage⟩
    cases hanswer : b.getMany t source r <;> rw [hanswer] at hpage <;> cases hpage
    exact hok page hanswer
  · rintro e _ ⟨rfl, he⟩
    cases hanswer : b.getMany t source r <;> rw [hanswer] at he <;> cases he
    exact herror _ hanswer

/-! ## Invariants of traces

One fact holds of the trace wherever the computation ends, the other is about what it
returns, if it returns.
-/

variable {I : List (Call relations) → Prop} {P : α → List (Call relations) → Prop}

theorem wp_pure_ok {a : α} (hI : I t) (hP : P a t) :
    (pure a : Fetch relations α).wp b t fun res t' => I t' ∧ ∀ a', res = .ok a' → P a' t' := by
  refine wp_pure ⟨hI, ?_⟩
  rintro _ ⟨⟩
  exact hP

theorem wp_bind_ok {x : Fetch relations α} {f : α → Fetch relations β}
    {Q : β → List (Call relations) → Prop}
    (hx : x.wp b t fun res t' => I t' ∧ ∀ a, res = .ok a → P a t')
    (hf : ∀ a t', I t' → P a t' →
      (f a).wp b t' fun res t'' => I t'' ∧ ∀ c, res = .ok c → Q c t'') :
    (x >>= f).wp b t fun res t'' => I t'' ∧ ∀ c, res = .ok c → Q c t'' := by
  refine wp_bind hx (fun a t' hok => hf a t' hok.1 (hok.2 a rfl)) fun e t' hfails => ?_
  refine ⟨hfails.1, ?_⟩
  rintro _ ⟨⟩

/-! ## Kinds of calls -/

/-- The last call failed with this failure. -/
def FailedLast (b : Backend relations) (e : Failure) (t : List (Call relations)) : Prop :=
  ∃ front c p, t = front ++ [c] ∧ b.getMany front c.source c.request = .error p ∧ e = .ofFault p

/-- All calls of the computation are of one kind, and it fails only with the last of them. -/
def Sends (b : Backend relations) (C : Call relations → Prop) (x : Fetch relations α) : Prop :=
  ∀ t, x.wp b t fun res t' => (∃ calls, t' = t ++ calls ∧ ∀ c ∈ calls, C c) ∧
    ∀ e, res = .error e → FailedLast b e t'

variable {C : Call relations → Prop}

theorem sends_pure (a : α) : Sends b C (pure a : Fetch relations α) := fun t =>
  wp_pure ⟨⟨[], (List.append_nil t).symm, fun _ hc => nomatch hc⟩, fun _ h => nomatch h⟩

theorem sends_getMany {source : Source relations} {r : Request} (h : C ⟨source, .getMany, r⟩) :
    Sends b C (getMany source r) := by
  intro t
  have hcall : ∃ calls, t ++ [⟨source, .getMany, r⟩] = t ++ calls ∧ ∀ c ∈ calls, C c :=
    ⟨_, rfl, fun _ hc => List.mem_singleton.1 hc ▸ h⟩
  refine wp_getMany (fun _ _ => ⟨hcall, fun _ h => nomatch h⟩) fun p hp => ⟨hcall, fun e he => ?_⟩
  cases he
  exact ⟨t, _, p, rfl, hp, rfl⟩

theorem Sends.bind {x : Fetch relations α} {f : α → Fetch relations β} (hx : Sends b C x)
    (hf : ∀ a, Sends b C (f a)) : Sends b C (x >>= f) := by
  refine fun t => wp_bind (hx t) (fun a t' hcalls => ?_) fun e t' hcalls => ?_
  · obtain ⟨⟨calls, rfl, hC⟩, -⟩ := hcalls
    refine wp_mono (hf a (t ++ calls)) fun res t' hmore => ?_
    obtain ⟨⟨more, rfl, hC'⟩, hfails⟩ := hmore
    exact ⟨⟨calls ++ more, List.append_assoc .., List.forall_mem_append.2 ⟨hC, hC'⟩⟩, hfails⟩
  · exact ⟨hcalls.1, fun e' he => hcalls.2 e' (by cases he; rfl)⟩

theorem Sends.mono {x : Fetch relations α} {D : Call relations → Prop} (hx : Sends b C x)
    (h : ∀ c, C c → D c) : Sends b D x := fun t =>
  wp_mono (hx t) fun _ _ ⟨⟨calls, ht, hC⟩, hfails⟩ =>
    ⟨⟨calls, ht, fun c hc => h c (hC c hc)⟩, hfails⟩

/-- What no call of the kind changes, many of them do not change. -/
theorem stable_append {P : List (Call relations) → Prop}
    (hstable : ∀ t c, C c → P t → P (t ++ [c])) {calls : List (Call relations)}
    (hcalls : ∀ c ∈ calls, C c) (ht : P t) : P (t ++ calls) := by
  induction calls generalizing t with
  | nil => rwa [List.append_nil]
  | cons c rest ih =>
    obtain ⟨hc, hrest⟩ := List.forall_mem_cons.1 hcalls
    rw [List.append_cons]
    exact ih hrest (hstable t c hc ht)

theorem Sends.preserves {x : Fetch relations α} (hx : Sends b C x)
    {P : List (Call relations) → Prop} (hstable : ∀ t c, C c → P t → P (t ++ [c])) (ht : P t) :
    x.wp b t fun _ t' => P t' := by
  refine wp_mono (hx t) fun res t' hcalls => ?_
  obtain ⟨⟨calls, rfl, hC⟩, -⟩ := hcalls
  exact stable_append hstable hC ht

/-! ## Returned values -/

/-- What the computation returns, if it returns, has the property. -/
def Returns (x : Fetch relations α) (P : α → Prop) : Prop :=
  ∀ b t a t', x b t = (.ok a, t') → P a

theorem Returns.wp {x : Fetch relations α} {P : α → Prop} (hx : Returns x P) :
    x.wp b t fun res _ => ∀ a, res = .ok a → P a :=
  fun a ha => hx b t a (x b t).2 (Prod.ext ha rfl)

theorem returns_pure {P : α → Prop} {a : α} (h : P a) : Returns (pure a : Fetch relations α) P := by
  intro b t a' t' hrun
  cases hrun
  exact h

theorem returns_fail {P : α → Prop} (e : Failure) : Returns (fail e : Fetch relations α) P := by
  intro b t a t' hrun
  cases hrun

theorem Returns.bind {P : α → Prop} {Q : β → Prop} {x : Fetch relations α}
    {f : α → Fetch relations β} (hx : Returns x P) (hf : ∀ a, P a → Returns (f a) Q) :
    Returns (x >>= f) Q := by
  intro b t c t' hrun
  rw [bind_apply] at hrun
  split at hrun
  · next a t'' hok => exact hf a (hx b t a t'' hok) _ _ _ _ hrun
  · cases hrun

theorem returns_bind {P : β → Prop} {x : Fetch relations α} {f : α → Fetch relations β}
    (h : ∀ a, Returns (f a) P) : Returns (x >>= f) P :=
  Returns.bind (P := fun _ => True) (fun _ _ _ _ _ => trivial) fun a _ => h a

theorem bind_congr_of_returns {x : Fetch relations α} {f g : α → Fetch relations β}
    {P : α → Prop} (hx : Returns x P) (h : ∀ a, P a → f a = g a) : x >>= f = x >>= g := by
  funext b t
  rw [bind_apply, bind_apply]
  cases hrun : x b t with
  | mk res t' =>
    cases res with
    | ok a => exact congrFun (congrFun (h a (hx b t a t' hrun)) b) t'
    | error e => rfl

end Fetch

end FederatedJoin
