-- SUMMARY: Which of a request's conditions on relations the roots of a page are known to satisfy.
import FederatedJoin.Proofs.ShownRoots

/-!
# Relation filters

Conditions on a relation constrain the roots: a root that is shown has a row of
that relation on which they hold. Two kinds of roots escape. Discovery sends the
conditions together with what it adds to them, and disjunctive conditions do not
outlive an addition: only the driving relation, and only while no record is
asked of it, is sent them alone. And a root without a join key, which has no
rows at all, is shown where the root's provider compares the keys.
-/

namespace FederatedJoin

namespace Plan

variable {relations : List Relation}

/-- Whether the conditions on the relation keep their meaning during discovery. -/
def Keeps (plan : Plan relations) (r : Request) (id : RelationId relations) : Prop :=
  (r.about id).isDisjunctive = true →
    plan.strategy.driving? = some id ∧ Routing.isAsked r id = false

theorem driving?_eq_some_of_mem_chain {plan : Plan relations} {id : RelationId relations}
    (h : id ∈ plan.strategy.chain) :
    ∃ driving narrowing, plan.strategy = .relationFirst driving narrowing ∧
      id ∈ driving :: narrowing := by
  cases hstrategy : plan.strategy with
  | rootFirst =>
    rw [hstrategy] at h
    cases h
  | relationFirst driving narrowing =>
    rw [hstrategy] at h
    exact ⟨driving, narrowing, rfl, h⟩

end Plan

namespace Federation

variable {f : Federation Collection} {plan : Plan f.schema.relations}

/-- The relation has a row with the root's key that satisfies the request's own conditions on it. -/
def Meets (f : Federation Collection) (r : Request) (id : RelationId f.schema.relations)
    (root : Record) : Prop :=
  ∃ key, root.joinKey? (f.schema.relations.get id).rootKeyField = some key ∧
    ∃ row ∈ f.rowsOf id key, (r.about id).searchTree.holds row = true

/-- A key of a root that may be shown has passed each relation with conditions. -/
theorem Qualifies.exists_row (hfit : f.FitsWords) {limits : Limits} {r : Request}
    (hmade : plan.MadeFor limits r) {root : Record} (hroot : f.Qualifies plan root)
    {id : RelationId f.schema.relations} (hid : id ∈ plan.strategy.chain) {key : JoinKey}
    (hkey : root.joinKey? (f.schema.relations.get id).rootKeyField = some key) :
    ∃ row ∈ f.rowsOf id key, plan.Keeps r id → (r.about id).searchTree.holds row = true := by
  obtain ⟨driving, narrowing, hstrategy, hchain⟩ := Plan.driving?_eq_some_of_mem_chain hid
  rw [hmade.rootKeyField_of_mem_chain hstrategy hchain] at hkey
  have hdiscovered := hroot.discovered driving narrowing hstrategy key hkey
  obtain ⟨row, hrow, hholds⟩ := exists_row_of_mem_keysOfFirst hfit hmade hdiscovered hchain
  refine ⟨row, hrow, fun hkeeps => hholds fun hdisjunctive => ?_⟩
  obtain ⟨hdriving, hasked⟩ := hkeeps hdisjunctive
  rw [hstrategy] at hdriving
  exact ⟨(Option.some.inj hdriving).symm, hasked⟩

/-- Unless the root's provider orders the keys, a shown root has a key for every relation of the
chain. -/
theorem Qualifies.exists_key {limits : Limits} {r : Request} (hmade : plan.MadeFor limits r)
    {root : Record} (hroot : f.Qualifies plan root) {id : RelationId f.schema.relations}
    (hid : id ∈ plan.strategy.chain) (hordered : plan.isRootOrdered = false) :
    ∃ key, root.joinKey? (f.schema.relations.get id).rootKeyField = some key := by
  obtain ⟨driving, narrowing, hstrategy, hchain⟩ := Plan.driving?_eq_some_of_mem_chain hid
  rw [hmade.rootKeyField_of_mem_chain hstrategy hchain]
  exact hroot.keyed driving narrowing hstrategy hordered

/-- Every root that is shown meets the conditions on each relation, if these keep their meaning
during discovery and the root has a key for the relation, as it has in every plan that is not
ordered by the root. -/
theorem answer_meets_conditions (hfit : f.FitsWords) {r : Request} (hplan : f.plan r = .ok plan) :
    ∃ (page : Page) (shown : List Record), f.answer r = .ok page ∧
      page.data.map (·.outside plan.attached) = shown.map (·.outside plan.attached) ∧
      ∀ root ∈ shown, root ∈ f.root.rows ∧ ∀ id : RelationId f.schema.relations,
        ((r.about id).filters ≠ [] ∨ (r.about id).orFilters ≠ []) → plan.Keeps r id →
        (plan.isRootOrdered = true →
          (root.joinKey? (f.schema.relations.get id).rootKeyField).isSome = true) →
        f.Meets r id root := by
  have hmade := Plan.make_eq_ok_iff.1 hplan
  obtain ⟨page, shown, hanswer, hdata, hshown⟩ := answer_shows hfit hplan
  refine ⟨page, shown, hanswer, ?_, fun root hroot => ⟨(hshown root hroot).stored, ?_⟩⟩
  · rw [hdata]
    exact Hydration.map_outside_hydrated plan shown
  · intro id hconditions hkeeps hkeyed
    have hqualifies := hshown root hroot
    have hchain := hmade.mem_chain_of_conditions hconditions
    obtain ⟨key, hkey⟩ : ∃ key,
        root.joinKey? (f.schema.relations.get id).rootKeyField = some key := by
      cases hordered : plan.isRootOrdered with
      | false => exact hqualifies.exists_key hmade hchain hordered
      | true => exact Option.isSome_iff_exists.1 (hkeyed hordered)
    obtain ⟨row, hrow, hholds⟩ := hqualifies.exists_row hfit hmade hchain hkey
    exact ⟨key, hkey, row, hrow, hholds hkeeps⟩

end Federation

namespace Shop

open Federation

/-- Customers with an order, one of the first at 7 and one of the second at 8. -/
def served : Federation Collection :=
  federation (anOrder.withJoin .inner) ⟨10, 100, 10, true⟩ [customer 1 0, customer 2 0]
    [order 1 7, order 2 8]

def atEightPlan (disjunctive : Bool) : Plan served.schema.relations where
  routing := .ofRequest _ (atEight anOrder disjunctive)
  sorts := ⟨[], []⟩
  strategy := .relationFirst theRelation []
  hydrated := [theRelation]
  limit := 10
  offset := 0

theorem plan_served (disjunctive : Bool) :
    served.plan (atEight anOrder disjunctive) = .ok (atEightPlan disjunctive) := by
  cases disjunctive <;> rfl

theorem fitsWords_served : served.FitsWords := fitsWords (by decide) (by decide)

/-- As a condition of the first list, the price leaves the second customer only. -/
theorem answer_meets_conditions_served : ∃ (page : Page) (shown : List Record),
    served.answer (atEight anOrder false) = .ok page ∧ shown.length = 1 ∧
    page.data.map (·.outside ["order"]) = shown.map (·.outside ["order"]) ∧
    ∀ root ∈ shown,
      root ∈ served.root.rows ∧ served.Meets (atEight anOrder false) theRelation root := by
  obtain ⟨page, shown, hanswer, hdata, hshown⟩ :=
    answer_meets_conditions fitsWords_served (plan_served false)
  have hcount : (served.answer (atEight anOrder false)).map (·.data.length) = .ok 1 := by cbv
  have hone : page.data.length = 1 := Except.ok.inj (hanswer ▸ hcount)
  have hlength : page.data.length = shown.length := by simpa using congrArg List.length hdata
  refine ⟨page, shown, hanswer, hlength ▸ hone, hdata, fun root hroot => ?_⟩
  obtain ⟨hstored, hmeets⟩ := hshown root hroot
  refine ⟨hstored, hmeets theRelation (.inl (List.cons_ne_nil _ _)) ?_ ?_⟩
  · intro hdisjunctive
    cases hdisjunctive
  · intro hordered
    cases hordered

/-- Next to the existence check of the inner join, the price is an alternative only. -/
theorem not_forall_answer_meets_conditions : ¬ ∀ (f : Federation Collection) (r : Request)
    (plan : Plan f.schema.relations), f.FitsWords → f.schema.validate = .ok () →
    f.plan r = .ok plan →
    ∃ (page : Page) (shown : List Record), f.answer r = .ok page ∧
      page.data.map (·.outside plan.attached) = shown.map (·.outside plan.attached) ∧
      ∀ root ∈ shown, root ∈ f.root.rows ∧ ∀ id : RelationId f.schema.relations,
        ((r.about id).filters ≠ [] ∨ (r.about id).orFilters ≠ []) → f.Meets r id root := by
  intro h
  obtain ⟨page, shown, hanswer, hdata, hshown⟩ := h served (atEight anOrder true) (atEightPlan true)
    fitsWords_served rfl (plan_served true)
  have hpage : (served.answer (atEight anOrder true)).map
      (fun page => page.data.map (·.joinKey? "id")) = .ok [some (.int 1), some (.int 2)] := by cbv
  rw [hanswer] at hpage
  have hid : "id" ∉ (atEightPlan true).attached := by decide
  have hkeys := (Record.map_joinKey?_eq_of_outside hdata hid).symm.trans (Except.ok.inj hpage)
  obtain ⟨root, hroot, hkey⟩ : ∃ root ∈ shown, root.joinKey? "id" = some (.int 1) := by
    have hmem : some (JoinKey.int 1) ∈ shown.map (·.joinKey? "id") := by
      rw [hkeys]
      exact List.mem_cons_self
    simpa using hmem
  obtain ⟨key, hother, row, hrow, hholds⟩ :=
    (hshown root hroot).2 theRelation (.inr (List.cons_ne_nil _ _))
  obtain rfl : JoinKey.int 1 = key := Option.some.inj (hkey.symm.trans hother)
  have hnone : (served.rowsOf theRelation (.int 1)).any (fun row =>
      (@Request.about served.schema.relations (atEight anOrder true)
        theRelation).searchTree.holds row) = false := by cbv
  exact Bool.false_ne_true (hnone.symm.trans (List.any_eq_true.2 ⟨row, hrow, hholds⟩))

end Shop

end FederatedJoin
