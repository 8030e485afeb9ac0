-- SUMMARY: Hydrating roots together gives each the record that it has alone, on pages and as a single record.
import FederatedJoin.Proofs.AttachedRows

/-!
# Single roots

The roots of a page share one request for each relation, constrained to the keys
of all of them. What comes back is split by key again, and a row with the key of
one root is admitted or not whatever other keys are asked for. So no root has to
do with the others on its page: it may lack the keys that they have, share them,
or occur twice. A record that is asked for by itself is therefore the one that a
page shows for the same root, if both requests have the same conditions on
relations.
-/

namespace FederatedJoin

/-! ## Requests with other root filters -/

theorem Routing.conditionsOf_filter_isSome {relations : List Relation} (id : RelationId relations)
    (cs : List Condition) :
    conditionsOf id (cs.filter (·.relation.isSome)) = conditionsOf id cs := by
  unfold conditionsOf
  rw [List.filter_filter]
  apply congrArg (List.map _)
  apply List.filter_congr
  intro c _
  cases c.relation <;> simp [Scope.ofTag]

theorem Request.about_filters_congr {relations : List Relation} (r : Request)
    {filters : List Condition}
    (h : filters.filter (·.relation.isSome) = r.filters.filter (·.relation.isSome))
    (id : RelationId relations) : { r with filters := filters }.about id = r.about id := by
  have hsame : Routing.conditionsOf id filters = Routing.conditionsOf id r.filters := by
    rw [← Routing.conditionsOf_filter_isSome, h, Routing.conditionsOf_filter_isSome]
  unfold about
  rw [hsame]

namespace Plan

variable {relations : List Relation} {limits : Limits} {r : Request} {plan other : Plan relations}

/-- Root filters have no part in which relations are constrained, and so none in which of them
are hydrated. -/
theorem hydrated_eq_of_filters (hmade : plan.MadeFor limits r) {filters : List Condition}
    (h : filters.filter (·.relation.isSome) = r.filters.filter (·.relation.isSome))
    (hother : other.MadeFor limits { r with filters := filters }) :
    other.hydrated = plan.hydrated := by
  have hsets : ∀ id, other.routing.sets.get id = plan.routing.sets.get id := by
    intro id
    rw [hother.get_sets, hmade.get_sets, Routing.get_sets_ofRequest, Routing.get_sets_ofRequest,
      r.about_filters_congr h]
    rfl
  have hsorts : other.sorts = plan.sorts :=
    Except.ok.inj (hother.sorts_eq.symm.trans hmade.sorts_eq)
  have hstrategy : other.strategy = plan.strategy := by
    have hconstrained : other.routing.constrained = plan.routing.constrained := by
      unfold Routing.constrained
      simp only [hsets]
    rw [← hother.strategy_eq, ← hmade.strategy_eq, hsorts]
    unfold Strategy.select
    rw [hconstrained]
  have hhydrated := hother.hydrated_eq
  rw [hstrategy] at hhydrated
  exact Except.ok.inj (hhydrated.symm.trans hmade.hydrated_eq)

end Plan

namespace Federation

open Hydration Execution

variable {f : Federation Collection} {plan : Plan f.schema.relations} {r : Request}

/-! ## Records of separate relations -/

theorem joinedRecord_of_separate (hseparate : Separate plan.hydrated) (roots : List Record)
    (root : Record) : f.joinedRecord r plan roots root = root.setAll (plan.hydrated.map fun id =>
      ((f.schema.relations.get id).property,
        (f.schema.relations.get id).attachment (f.relatedRows r id root))) := by
  unfold joinedRecord
  congr 1
  apply List.map_congr_left
  intro id hid
  rw [attachedValue_of_separate hseparate hid]

/-- The record of a root is the same in any company. -/
theorem joinedRecord_eq_alone (hseparate : Separate plan.hydrated) (roots : List Record)
    (root : Record) : f.joinedRecord r plan roots root = f.joinedRecord r plan [root] root := by
  rw [joinedRecord_of_separate hseparate, joinedRecord_of_separate hseparate]

theorem hydrated_singleton (hfit : f.FitsWords) (hvalid : f.schema.validate = .ok ())
    {limits : Limits} (hmade : plan.MadeFor limits r) (root : Record) :
    hydrated f plan [root] = [f.joinedRecord r plan [root] root] :=
  hydrated_eq_map hfit hvalid hmade [root]

/-! ## Pages and single records -/

/-- The roots of a page before their relations are attached. -/
def shownRoots (f : Federation Collection) (plan : Plan f.schema.relations) :
    Except Failure (List Record) :=
  ((unattached plan f.limits).run f.backend).1.map (·.1)

theorem exists_shownRoots (hplan : f.plan r = .ok plan) {page : Page}
    (hpage : f.answer r = .ok page) :
    ∃ shown, f.shownRoots plan = .ok shown ∧ page.data = hydrated f plan shown := by
  unfold answer Fetch.run at hpage
  rw [getMany_of_plan hplan, pageOfPlan_eq, Fetch.bind_apply] at hpage
  unfold shownRoots Fetch.run
  cases hfound : unattached plan f.limits f.backend [] with
  | mk res t =>
    rw [hfound] at hpage
    cases res with
    | error e => cases hpage
    | ok found =>
      have hfinish : f.Answers (finish plan found)
          (pageOf plan (hydrated f plan found.1) found.2) :=
        (answers_hydrate plan found.1).bind (answers_pure _)
      obtain rfl := Except.ok.inj ((hfinish t).symm.trans hpage)
      exact ⟨found.1, rfl, rfl⟩

/-- A request with other root filters that selects a root gets the record that it has alone. -/
theorem recordAnswer_of_filters (hfit : f.FitsWords) (hvalid : f.schema.validate = .ok ())
    (hplan : f.plan r = .ok plan) (hseparate : Separate plan.hydrated) {filters : List Condition}
    (h : filters.filter (·.relation.isSome) = r.filters.filter (·.relation.isSome))
    {other : Plan f.schema.relations} (hother : f.plan { r with filters := filters } = .ok other)
    {root : Record} (hroot : f.root.getOne other.routing.rootRequest = .ok root) :
    f.recordAnswer { r with filters := filters } = .ok (f.joinedRecord r plan [root] root) := by
  have hmade := Plan.make_eq_ok_iff.1 hplan
  have hmadeOther := Plan.make_eq_ok_iff.1 hother
  have hhydrated := Plan.hydrated_eq_of_filters hmade h hmadeOther
  have hsame : f.joinedRecord { r with filters := filters } other [root] root =
      f.joinedRecord r plan [root] root := by
    rw [joinedRecord_of_separate (hhydrated ▸ hseparate), joinedRecord_of_separate hseparate,
      hhydrated]
    simp only [relatedRows, r.about_filters_congr h]
  rw [recordAnswer_of_plan hother, hroot]
  show Except.ok ((hydrated f other [root]).headD root) = _
  rw [hydrated_singleton hfit hvalid hmadeOther, hsame]
  rfl

/-- Together, every root gets the record that it gets alone. So a single record is the one that
a page shows for the same root, when the requests differ in root filters only. -/
theorem hydrate_each_alone (hfit : f.FitsWords) (hvalid : f.schema.validate = .ok ())
    (hplan : f.plan r = .ok plan) (hseparate : Separate plan.hydrated) :
    (∀ roots, ∃ records, f.Answers (hydrate plan roots) records ∧
      List.Forall₂ (fun root record => f.Answers (hydrate plan [root]) [record]) roots records) ∧
    ∃ page shown, f.answer r = .ok page ∧ f.shownRoots plan = .ok shown ∧
      ∀ filters other,
        filters.filter (·.relation.isSome) = r.filters.filter (·.relation.isSome) →
        f.plan { r with filters := filters } = .ok other →
        List.Forall₂ (fun root record => f.root.getOne other.routing.rootRequest = .ok root →
          f.recordAnswer { r with filters := filters } = .ok record) shown page.data := by
  have hmade := Plan.make_eq_ok_iff.1 hplan
  have htogether : ∀ roots, hydrated f plan roots =
      roots.map fun root => f.joinedRecord r plan [root] root := by
    intro roots
    rw [hydrated_eq_map hfit hvalid hmade]
    exact List.map_congr_left fun root _ => joinedRecord_eq_alone hseparate roots root
  constructor
  · intro roots
    refine ⟨_, answers_hydrate plan roots, ?_⟩
    rw [htogether, List.forall₂_map_right_iff, List.forall₂_same]
    intro root _
    rw [← hydrated_singleton hfit hvalid hmade]
    exact answers_hydrate plan [root]
  · obtain ⟨page, -, hanswer, -⟩ := answer_shows hfit hplan
    obtain ⟨shown, hshown, hdata⟩ := exists_shownRoots hplan hanswer
    refine ⟨page, shown, hanswer, hshown, fun filters other hfilters hother => ?_⟩
    rw [hdata, htogether, List.forall₂_map_right_iff, List.forall₂_same]
    intro root _ hroot
    exact recordAnswer_of_filters hfit hvalid hplan hseparate hfilters hother hroot

end Federation

namespace Shop

open Federation

/-- Two customers with one order at 8 each; the first has another. -/
def sharing : Federation Collection :=
  federation orders ⟨10, 100, 10, true⟩ [customer 1 0, customer 2 0]
    [order 1 7, order 2 8, order 1 8]

/-- Orders with a price, or those at 8. -/
def pricedOrEight : Request :=
  { atEight orders true with filters := [priced orders] }

/-- The same of one customer. -/
def ofSecond : Request :=
  { pricedOrEight with filters := ⟨"id", .equal, .int 2, none⟩ :: pricedOrEight.filters }

def sharingPlan (r : Request) : Plan sharing.schema.relations where
  routing := .ofRequest _ r
  sorts := ⟨[], []⟩
  strategy := .relationFirst theRelation []
  hydrated := [theRelation]
  limit := 10
  offset := 0

/-- A root that occurs twice, another and one without a key are hydrated as each alone, and the
second customer's record is the second of the page. -/
theorem hydrate_each_alone_sharing :
    (∃ records, sharing.Answers (Hydration.hydrate (sharingPlan pricedOrEight)
        [customer 1 0, customer 1 0, customer 2 0, record [("rank", 0)]]) records ∧
      List.Forall₂ (fun root record =>
        sharing.Answers (Hydration.hydrate (sharingPlan pricedOrEight) [root]) [record])
        [customer 1 0, customer 1 0, customer 2 0, record [("rank", 0)]] records) ∧
    ∃ page first second, sharing.answer pricedOrEight = .ok page ∧ page.data = [first, second] ∧
      sharing.recordAnswer ofSecond = .ok second := by
  have hfit : sharing.FitsWords := fitsWords (by decide) (by decide)
  have hplan : sharing.plan pricedOrEight = .ok (sharingPlan pricedOrEight) := rfl
  have hother : sharing.plan ofSecond = .ok (sharingPlan ofSecond) := rfl
  obtain ⟨halone, page, shown, hanswer, hshown, hsingle⟩ :=
    hydrate_each_alone hfit rfl hplan (Hydration.separate_singleton _)
  have hroots : sharing.shownRoots (sharingPlan pricedOrEight) =
      .ok [customer 1 0, customer 2 0] := by cbv
  have hfound : sharing.root.getOne (sharingPlan ofSecond).routing.rootRequest =
      .ok (customer 2 0) := by cbv
  have hall := hsingle ofSecond.filters _ rfl hother
  rw [Except.ok.inj (hshown.symm.trans hroots)] at hall
  obtain ⟨first, rest, -, hrest, hdata⟩ := List.forall₂_cons_left_iff.1 hall
  obtain ⟨second, none, hsecond, hnone, hlast⟩ := List.forall₂_cons_left_iff.1 hrest
  rw [List.forall₂_nil_left_iff.1 hnone] at hlast
  exact ⟨halone _, page, first, second, hanswer, hdata.trans (by rw [hlast]), hsecond hfound⟩

end Shop

end FederatedJoin
