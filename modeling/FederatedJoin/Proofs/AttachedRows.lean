-- SUMMARY: Which related rows the records of an answer show, for pages and for single records.
import FederatedJoin.Proofs.ShownRoots

/-!
# Attached rows

A hydrated relation's property shows the rows with the root's key that the
request's own conditions on the relation admit, and of these every content. The
key constraint is added to the conditions, so disjunctive ones become an
alternative to it that the grouping by key hides again: then the property shows
every row with the root's key.
-/

namespace FederatedJoin

namespace Record

theorem toJson_injective : Function.Injective toJson :=
  fun ⟨_⟩ ⟨_⟩ h => congrArg Record.mk (Json.object.inj h)

end Record

theorem Collection.mem_of_getOne_eq_ok {c : Collection} {q : Request} {row : Record}
    (h : c.getOne q = .ok row) : row ∈ c.rows := by
  unfold getOne at h
  split at h
  · cases h
  · next first rest hselected =>
    obtain rfl := Except.ok.inj h
    have hmem : first ∈ c.select q := by
      rw [hselected]
      exact List.mem_cons_self
    exact (mem_select.1 hmem).1

namespace Federation

open Hydration Execution

variable {f : Federation Collection} {plan : Plan f.schema.relations} {r : Request}

/-! ## Rows that a request admits -/

/-- The rows are, up to repeated contents, those with the root's key on which the request's own
conditions on the relation hold. -/
structure Admits (f : Federation Collection) (r : Request) (id : RelationId f.schema.relations)
    (root : Record) (rows : List Record) : Prop where
  sound : ∀ row ∈ rows, row ∈ f.keyedRows id root ∧ (r.about id).searchTree.holds row = true
  complete : ∀ row ∈ f.keyedRows id root, (r.about id).searchTree.holds row = true →
    ∃ shown ∈ rows, shown.fingerprint = row.fingerprint

theorem admits_relatedRows {id : RelationId f.schema.relations}
    (hjoint : (r.about id).isDisjunctive = false) (root : Record) :
    f.Admits r id root (f.relatedRows r id root) := by
  simp only [relatedRows, hjoint, Bool.false_or]
  refine ⟨fun row hrow => ?_, fun row hrow hholds => ?_⟩
  · exact List.mem_filter.1 (Record.mem_of_mem_distinct hrow)
  · exact Record.exists_fingerprint_eq_of_mem (List.mem_filter.2 ⟨hrow, hholds⟩)

theorem relatedRows_of_disjunctive {id : RelationId f.schema.relations}
    (hdisjunctive : (r.about id).isDisjunctive = true) (root : Record) :
    f.relatedRows r id root = Record.distinct (f.keyedRows id root) := by
  simp [relatedRows, hdisjunctive]

/-! ## Single records -/

/-- The record that a request for one gets. -/
def recordAnswer (f : Federation Collection) (r : Request) : Except Failure Record :=
  ((f.getOne r).run f.backend).1

/-- The record is the first root that satisfies the root's conditions, hydrated. -/
theorem recordAnswer_of_plan (hplan : f.plan r = .ok plan) :
    f.recordAnswer r = ((f.root.getOne plan.routing.rootRequest).mapError .provider).map
      fun root => (hydrated f plan [root]).headD root := by
  have hresult := result_getOne (f := f) .root plan.routing.rootRequest
  unfold recordAnswer
  rw [getOne_of_plan hplan]
  unfold recordOfPlan Fetch.run
  cases hroot : f.root.getOne plan.routing.rootRequest with
  | error e =>
    rw [Fetch.bind_of_error (e := .provider e)]
    · rfl
    · exact Prod.ext ((hresult []).trans (congrArg (Except.mapError Failure.provider) hroot)) rfl
  | ok root =>
    have hfetched : f.Answers (Fetch.getOne .root plan.routing.rootRequest) root := fun trace =>
      (hresult trace).trans (congrArg (Except.mapError Failure.provider) hroot)
    exact (hfetched.bind ((answers_hydrate plan [root]).bind
      (answers_pure ((hydrated f plan [root]).headD root)))) []

/-! ## Records of an answer -/

/-- The record is the root, and under each hydrated relation it shows the admitted rows. For a
relation with disjunctive conditions it shows all rows with the root's key. -/
structure ShowsRows (f : Federation Collection) (r : Request) (plan : Plan f.schema.relations)
    (root record : Record) : Prop where
  stored : root ∈ f.root.rows
  outside_eq : record.outside plan.attached = root.outside plan.attached
  admitted : ∀ id ∈ plan.hydrated, (r.about id).isDisjunctive = false → ∃ rows,
    record.get? (f.schema.relations.get id).property =
      some ((f.schema.relations.get id).attachment rows) ∧ f.Admits r id root rows
  unfiltered : ∀ id ∈ plan.hydrated, (r.about id).isDisjunctive = true →
    record.get? (f.schema.relations.get id).property =
      some ((f.schema.relations.get id).attachment (Record.distinct (f.keyedRows id root)))

theorem Shows.showsRows {root record : Record} (h : f.Shows r plan root record)
    (hstored : root ∈ f.root.rows) : f.ShowsRows r plan root record where
  stored := hstored
  outside_eq := h.outside_eq
  admitted id hid hjoint := ⟨_, h.get?_property id hid, admits_relatedRows hjoint root⟩
  unfiltered id hid hdisjunctive := by
    rw [h.get?_property id hid, relatedRows_of_disjunctive hdisjunctive]

/-- Every record of a page, and the single record too, shows the rows that the request admits.
Only disjunctive conditions are not heeded. -/
theorem attached_rows_admitted (hfit : f.FitsWords) (hvalid : f.schema.validate = .ok ())
    (hplan : f.plan r = .ok plan) (hseparate : Separate plan.hydrated) :
    (∃ page shown, f.answer r = .ok page ∧ List.Forall₂ (f.ShowsRows r plan) shown page.data) ∧
    (∀ root, f.root.getOne plan.routing.rootRequest = .ok root →
      ∃ record, f.recordAnswer r = .ok record ∧ f.ShowsRows r plan root record) ∧
    ∀ e, f.root.getOne plan.routing.rootRequest = .error e →
      f.recordAnswer r = .error (.provider e) := by
  have hmade := Plan.make_eq_ok_iff.1 hplan
  refine ⟨?_, fun root hroot => ?_, fun e he => ?_⟩
  · obtain ⟨page, shown, hanswer, hdata, hshown⟩ := answer_shows hfit hplan
    refine ⟨page, shown, hanswer, ?_⟩
    rw [hdata]
    have hstored : ∀ root ∈ shown, root ∈ f.root.rows :=
      fun root hroot => (hshown root hroot).stored
    have hall := forall₂_shows_hydrated hfit hvalid hmade hseparate shown
    exact ((List.forall₂_and_left _ _).2 ⟨hstored, hall⟩).imp fun _ _ h => h.2.showsRows h.1
  · have hone := forall₂_shows_hydrated hfit hvalid hmade hseparate [root]
    obtain ⟨record, rest, hshows, -, hrecords⟩ := List.forall₂_cons_left_iff.1 hone
    refine ⟨record, ?_, hshows.showsRows (Collection.mem_of_getOne_eq_ok hroot)⟩
    rw [recordAnswer_of_plan hplan, hroot]
    exact congrArg (fun records => Except.ok (records.headD root)) hrecords
  · rw [recordAnswer_of_plan hplan, he]
    rfl

end Federation

namespace Shop

open Federation

/-- A customer with an order at 7 and one at 8. -/
def mixed : Federation Collection :=
  federation orders ⟨10, 100, 10, true⟩ [customer 1 0] [order 1 7, order 1 8]

def mixedPlan (disjunctive : Bool) : Plan mixed.schema.relations where
  routing := .ofRequest _ (atEight orders disjunctive)
  sorts := ⟨[], []⟩
  strategy := .relationFirst theRelation []
  hydrated := [theRelation]
  limit := 10
  offset := 0

theorem plan_mixed (disjunctive : Bool) :
    mixed.plan (atEight orders disjunctive) = .ok (mixedPlan disjunctive) := by
  cases disjunctive <;> rfl

theorem fitsWords_mixed : mixed.FitsWords := fitsWords (by decide) (by decide)

theorem attached_rows_admitted_mixed : ∃ page shown,
    mixed.answer (atEight orders false) = .ok page ∧ page.data.length = 1 ∧
    List.Forall₂ (mixed.ShowsRows (atEight orders false) (mixedPlan false)) shown page.data := by
  obtain ⟨⟨page, shown, hanswer, hall⟩, -⟩ :=
    attached_rows_admitted fitsWords_mixed rfl (plan_mixed false)
      (Hydration.separate_singleton _)
  have hcount : (mixed.answer (atEight orders false)).map (·.data.length) = .ok 1 := by cbv
  exact ⟨page, shown, hanswer, Except.ok.inj (hanswer ▸ hcount), hall⟩

/-- Next to the key constraint, the price is an alternative only. -/
theorem not_forall_attached_rows_admitted : ¬ ∀ (f : Federation Collection) (r : Request)
    (plan : Plan f.schema.relations), f.FitsWords → f.schema.validate = .ok () →
    f.plan r = .ok plan → Hydration.Separate plan.hydrated →
    ∃ page shown, f.answer r = .ok page ∧ List.Forall₂ (fun root record =>
      record.outside plan.attached = root.outside plan.attached ∧ ∀ id ∈ plan.hydrated, ∃ rows,
        record.get? (f.schema.relations.get id).property =
          some ((f.schema.relations.get id).attachment rows) ∧ f.Admits r id root rows)
      shown page.data := by
  intro h
  obtain ⟨page, shown, hanswer, hall⟩ := h mixed (atEight orders true) (mixedPlan true)
    fitsWords_mixed rfl (plan_mixed true) (Hydration.separate_singleton _)
  have hpage : (mixed.answer (atEight orders true)).map
      (fun page => page.data.map (·.get? "orders")) =
        .ok [some (.array [(order 1 7).toJson, (order 1 8).toJson])] := by cbv
  rw [hanswer] at hpage
  obtain ⟨record, hrecord, hshown⟩ := List.map_eq_singleton_iff.1 (Except.ok.inj hpage)
  rw [hrecord] at hall
  obtain ⟨root, -, ⟨-, hattached⟩, -⟩ := List.forall₂_cons_right_iff.1 hall
  obtain ⟨rows, hrows, hadmits⟩ := hattached theRelation List.mem_cons_self
  have hboth : rows = [order 1 7, order 1 8] := by
    apply List.map_injective_iff.2 Record.toJson_injective
    exact (Json.array.inj (Option.some.inj (hshown.symm.trans hrows))).symm
  have hholds := (hadmits.sound (order 1 7) (hboth ▸ List.mem_cons_self)).2
  have hseven : (@Request.about mixed.schema.relations (atEight orders true)
      theRelation).searchTree.holds (order 1 7) = false := by cbv
  exact Bool.false_ne_true (hseven.symm.trans hholds)

end Shop

end FederatedJoin
