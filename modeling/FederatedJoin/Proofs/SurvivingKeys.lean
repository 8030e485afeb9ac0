-- SUMMARY: The keys that survive the chain, read off the calls and their answers.
import FederatedJoin.Proofs.WindowReads

/-!
# Surviving keys

Which keys discovery knows can be told from the calls alone: a key is discovered by
a window of driving rows that has it, if each of the calls that follow, one to every
relation of the chain, is answered with a row of the key. A key that is not among the
rows of one relation is given up there, so where the chain breaks off early no key of
the window survives, whatever is called next.
-/

namespace FederatedJoin

variable {relations : List Relation}

/-! ## Answers with a key -/

/-- The call is answered with a row of the relation that has the key. -/
def Call.AnswersKey (b : Backend relations) (t : List (Call relations)) (c : Call relations)
    (id : RelationId relations) (key : JoinKey) : Prop :=
  ∃ page, b.getMany t c.source c.request = .ok page ∧
    key ∈ Record.joinKeys page.data (relations.get id).relationKeyField

theorem Call.answersKey_iff_of_ok {b : Backend relations} {t : List (Call relations)}
    {c : Call relations} {page : Page} (h : b.getMany t c.source c.request = .ok page)
    (id : RelationId relations) (key : JoinKey) : c.AnswersKey b t id key ↔
      key ∈ Record.joinKeys page.data (relations.get id).relationKeyField := by
  unfold AnswersKey
  rw [h]
  simp

theorem Call.not_answersKey_of_error {b : Backend relations} {t : List (Call relations)}
    {c : Call relations} {e : Fault} (h : b.getMany t c.source c.request = .error e)
    (id : RelationId relations) (key : JoinKey) : ¬ c.AnswersKey b t id key := by
  rintro ⟨page, hpage, -⟩
  rw [h] at hpage
  cases hpage

/-- The calls made after `t` begin with one to each relation of the chain that is answered with a
row of the key. -/
def Survives (b : Backend relations) (key : JoinKey) :
    List (RelationId relations) → (t calls : List (Call relations)) → Prop
  | [], _, _ => True
  | _ :: _, _, [] => False
  | id :: rest, t, c :: calls =>
    c.source = .relation id ∧ c.AnswersKey b t id key ∧ Survives b key rest (t ++ [c]) calls

/-- One of the calls made after `t` is for a window that has the key, which then survives. -/
def Discovered (b : Backend relations) (driving : RelationId relations)
    (narrowing : List (RelationId relations)) (key : JoinKey) :
    (t calls : List (Call relations)) → Prop
  | _, [] => False
  | t, c :: calls =>
    (c.readsWindow driving = true ∧ c.AnswersKey b t driving key ∧
      Survives b key narrowing (t ++ [c]) calls) ∨
    Discovered b driving narrowing key (t ++ [c]) calls

variable {b : Backend relations} {driving : RelationId relations}
  {narrowing : List (RelationId relations)} {key : JoinKey} {t : List (Call relations)}

theorem Survives.append {chain : List (RelationId relations)} {calls : List (Call relations)}
    (h : Survives b key chain t calls) (more : List (Call relations)) :
    Survives b key chain t (calls ++ more) := by
  induction chain generalizing t calls with
  | nil => exact trivial
  | cons id rest ih =>
    cases calls with
    | nil => cases h
    | cons c calls => exact ⟨h.1, h.2.1, ih h.2.2⟩

theorem Discovered.append {calls : List (Call relations)}
    (h : Discovered b driving narrowing key t calls) (more : List (Call relations)) :
    Discovered b driving narrowing key t (calls ++ more) := by
  induction calls generalizing t with
  | nil => cases h
  | cons c calls ih => exact h.imp (fun hc => ⟨hc.1, hc.2.1, hc.2.2.append more⟩) ih

/-- Only windows discover keys. -/
theorem discovered_append_iff {calls : List (Call relations)}
    (hcalls : ∀ c ∈ calls, c.readsWindow driving = false) (more : List (Call relations)) :
    Discovered b driving narrowing key t (calls ++ more) ↔
      Discovered b driving narrowing key (t ++ calls) more := by
  induction calls generalizing t with
  | nil => rw [List.nil_append, List.append_nil]
  | cons c calls ih =>
    obtain ⟨hc, hrest⟩ := List.forall_mem_cons.1 hcalls
    have hno : ¬ (c.readsWindow driving = true ∧ c.AnswersKey b t driving key ∧
        Survives b key narrowing (t ++ [c]) (calls ++ more)) := fun h => by
      rw [hc] at h
      cases h.1
    rw [List.cons_append, Discovered, or_iff_right hno, ih hrest, ← List.append_cons]

/-! ## Narrowing -/

namespace Discovery

/-- What narrowing keeps are the keys that survive, whatever is called afterwards. -/
structure Narrowed (b : Backend relations) (routing : Routing relations)
    (chain : List (RelationId relations)) (keys : List JoinKey) (t calls : List (Call relations))
    (res : Except Failure (List JoinKey)) : Prop where
  asks : ∀ c ∈ calls, c.Asks routing.discoveryRequest chain
  sublist : ∀ kept, res = .ok kept → kept.Sublist keys
  survives_iff : ∀ key ∈ keys, ∀ more,
    Survives b key chain t (calls ++ more) ↔ ∃ kept, res = .ok kept ∧ key ∈ kept

theorem narrow_wp (routing : Routing relations) (chain : List (RelationId relations))
    (keys : List JoinKey) : (narrow routing chain keys).wp b t fun res t' =>
      ∃ calls, t' = t ++ calls ∧ Narrowed b routing chain keys t calls res := by
  induction chain generalizing keys t with
  | nil =>
    refine Fetch.wp_pure ⟨[], (List.append_nil t).symm, List.forall_mem_nil _, ?_, ?_⟩
    · rintro _ ⟨⟩
      exact List.Sublist.refl _
    · exact fun key hkey more => iff_of_true trivial ⟨keys, rfl, hkey⟩
  | cons id rest ih =>
    unfold narrow
    split
    · next hempty =>
      rw [List.isEmpty_iff.1 hempty]
      refine Fetch.wp_pure ⟨[], (List.append_nil t).symm, List.forall_mem_nil _, ?_, ?_⟩
      · rintro _ ⟨⟩
        exact List.Sublist.refl _
      · exact List.forall_mem_nil _
    · next hkeys =>
      have hcall : Call.Asks routing.discoveryRequest (id :: rest) ⟨.relation id, .getMany,
          (routing.discoveryRequest id).constrainKeys (relations.get id).relationKeyField keys⟩ :=
        .keys id keys List.mem_cons_self fun h => hkeys (List.isEmpty_iff.2 h)
      refine Fetch.wp_getMany_bind (fun page hpage => ?_) fun e he => ?_
      · refine Fetch.wp_mono (ih _) ?_
        rintro res _ ⟨calls, rfl, hnarrowed⟩
        refine ⟨_ :: calls, (List.append_cons ..).symm, ?_, fun kept hkept => ?_, ?_⟩
        · refine List.forall_mem_cons.2 ⟨hcall, fun c hc => ?_⟩
          exact (hnarrowed.asks c hc).mono fun _ => List.mem_cons_of_mem id
        · exact (hnarrowed.sublist kept hkept).trans List.filter_sublist
        · intro key hkey more
          rw [List.cons_append, Survives, Call.answersKey_iff_of_ok hpage]
          by_cases hmem : key ∈ Record.joinKeys page.data (relations.get id).relationKeyField
          · have hkept : key ∈ keys.filter fun key =>
                key ∈ Record.joinKeys page.data (relations.get id).relationKeyField :=
              List.mem_filter.2 ⟨hkey, decide_eq_true hmem⟩
            rw [hnarrowed.survives_iff key hkept more, and_iff_right rfl, and_iff_right hmem]
          · -- a key that the relation has no row of is given up
            refine iff_of_false (fun h => hmem h.2.1) ?_
            rintro ⟨kept, hkept, hin⟩
            have hsurvivor := List.mem_filter.1 ((hnarrowed.sublist kept hkept).subset hin)
            exact hmem (of_decide_eq_true hsurvivor.2)
      · refine ⟨[_], rfl, List.forall_mem_singleton.2 hcall, ?_, fun key _ more => ?_⟩
        · rintro _ ⟨⟩
        · refine iff_of_false (fun h => Call.not_answersKey_of_error he id key h.2.1) ?_
          rintro ⟨_, ⟨⟩, _⟩

/-! ## Keys along a run -/

/-- The known keys are those discovered so far, each once. -/
structure KnowsKeys (b : Backend relations) (driving : RelationId relations)
    (narrowing : List (RelationId relations)) (keys : List JoinKey) (t : List (Call relations)) :
    Prop where
  discovered_iff : ∀ key more, Discovered b driving narrowing key [] (t ++ more) ↔
    key ∈ keys ∨ Discovered b driving narrowing key t more
  nodup : keys.Nodup

variable {plan : Plan relations} {keys : List JoinKey} {d : Discovery}

theorem KnowsKeys.start : KnowsKeys b driving narrowing [] [] :=
  ⟨fun key more => by simp, List.nodup_nil⟩

theorem KnowsKeys.append (h : KnowsKeys b driving narrowing keys t) {c : Call relations}
    (hc : c.readsWindow driving = false) : KnowsKeys b driving narrowing keys (t ++ [c]) where
  discovered_iff key more := by
    rw [List.append_assoc, h.discovered_iff,
      discovered_append_iff (List.forall_mem_singleton.2 hc) more]
  nodup := h.nodup

theorem KnowsKeys.mem_iff (h : KnowsKeys b driving narrowing keys t) (key : JoinKey) :
    key ∈ keys ↔ Discovered b driving narrowing key [] t := by
  have hiff := h.discovered_iff key []
  rw [List.append_nil] at hiff
  rw [hiff]
  exact (or_iff_left fun h => h).symm

/-- The keys that a window adds are those that survive. -/
theorem KnowsKeys.add (h : KnowsKeys b driving narrowing keys t) {c : Call relations} {page : Page}
    (hreads : c.readsWindow driving = true) (hpage : b.getMany t c.source c.request = .ok page)
    {calls : List (Call relations)} {kept : List JoinKey}
    (hnarrowed : Narrowed b plan.routing narrowing
      (Record.joinKeys page.data (relations.get driving).relationKeyField) (t ++ [c]) calls
        (.ok kept)) :
    KnowsKeys b driving narrowing (keys ++ kept).eraseDups (t ++ c :: calls) where
  discovered_iff key more := by
    have hothers : ∀ c ∈ calls, c.readsWindow driving = false := fun c hc =>
      (hnarrowed.asks c hc).not_readsWindow (fun _ => rfl) driving
    have hkept : c.AnswersKey b t driving key ∧
        Survives b key narrowing (t ++ [c]) (calls ++ more) ↔ key ∈ kept := by
      rw [Call.answersKey_iff_of_ok hpage]
      constructor
      · rintro ⟨hname, hsurvives⟩
        obtain ⟨kept', ⟨⟩, hmem⟩ := (hnarrowed.survives_iff key hname more).1 hsurvives
        exact hmem
      · intro hmem
        have hname := (hnarrowed.sublist kept rfl).subset hmem
        exact ⟨hname, (hnarrowed.survives_iff key hname more).2 ⟨kept, rfl, hmem⟩⟩
    rw [List.append_assoc, h.discovered_iff, List.cons_append, Discovered, hkept,
      and_iff_right hreads, discovered_append_iff hothers, List.append_assoc, List.singleton_append,
      List.mem_eraseDups, List.mem_append, or_assoc]
  nodup := FirstOccurrence.nodup_eraseDups _

theorem KnowsKeys.readWindow_wp (h : KnowsKeys b driving narrowing d.keys t) :
    (d.readWindow plan driving narrowing).wp b t fun res t' => ∀ d', res = .ok d' →
      KnowsKeys b driving narrowing d'.keys t' ∧ d.keys <+: d'.keys := by
  refine Fetch.wp_getMany_bind (fun page hpage => ?_) fun _ _ _ h => nomatch h
  refine Fetch.wp_bind (narrow_wp plan.routing narrowing _) ?_ fun _ _ _ _ h => nomatch h
  rintro kept _ ⟨calls, rfl, hnarrowed⟩ d' ⟨⟩
  rw [← List.append_cons]
  refine ⟨h.add (readsWindow_windowCall plan driving d) hpage hnarrowed, ?_⟩
  have hprefix := FirstOccurrence.eraseDups_mono (List.prefix_append d.keys kept)
  rwa [FirstOccurrence.eraseDups_of_nodup h.nodup] at hprefix

end Discovery

end FederatedJoin
