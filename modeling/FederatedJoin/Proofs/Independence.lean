-- SUMMARY: What a relation's property shows does not depend on the other relations, unless one of them hides its keys.
import FederatedJoin.Proofs.Declarations
import FederatedJoin.Proofs.LeftJoins
import FederatedJoin.Proofs.ShownRoots

/-!
# Independent relations

With the roots first, a page shows the same roots whatever relations are hydrated
and in whatever order they are declared. The value of a property is the same too,
as far as the relation finds its keys. One that is hydrated alone always does.
Otherwise another relation may have been attached under the field that holds
them: then every root gets the empty value, also one with related rows. Whether
that happens depends on which relations are hydrated and on their order, so a
value differs between two requests exactly for the roots with related rows, when
the keys are overwritten in one and not in the other.
-/

namespace FederatedJoin

/-! ## Values -/

theorem Relation.attachment_eq_emptyValue_iff {relation : Relation} {rows : List Record} :
    relation.attachment rows = relation.emptyValue ↔ rows = [] := by
  constructor
  · intro h
    unfold attachment emptyValue at h
    cases hcardinality : relation.cardinality with
    | many =>
      rw [hcardinality] at h
      exact List.map_eq_nil_iff.1 (Json.array.inj h)
    | one =>
      rw [hcardinality] at h
      cases rows with
      | nil => rfl
      | cons row rest => cases h
  · rintro rfl
    exact relation.attachment_nil

theorem Record.distinct_eq_nil_iff {rows : List Record} : distinct rows = [] ↔ rows = [] :=
  FirstOccurrence.eraseDupsBy_eq_nil_iff

namespace Federation

open Execution Hydration

variable {f g : Federation Collection} {plan : Plan f.schema.relations} {r : Request}

/-- With the roots first, all rows with the root's key are related. -/
theorem relatedRows_of_rootFirst {limits : Limits} (hmade : plan.MadeFor limits r)
    (hfirst : plan.strategy = .rootFirst) (id : RelationId f.schema.relations) (root : Record) :
    f.relatedRows r id root = Record.distinct (f.keyedRows id root) := by
  obtain ⟨hfilters, hor⟩ := hmade.about_of_rootFirst hfirst id
  have hholds : ∀ row, (r.about id).searchTree.holds row = true := by
    intro row
    rw [Request.holds_searchTree_of_filters hor rfl, hfilters]
    rfl
  unfold relatedRows
  simp only [hholds, Bool.or_true, List.filter_true]

namespace Redeclares

theorem keyedRows_eq (h : g.Redeclares f) (hvalid : f.schema.validate = .ok ())
    {id : RelationId f.schema.relations} {other : RelationId g.schema.relations}
    (hsame : g.schema.relations.get other = f.schema.relations.get id) (root : Record) :
    g.keyedRows other root = f.keyedRows id root := by
  unfold keyedRows rowsOf
  rw [hsame, h.provider_eq hvalid hsame]

/-- Two values of a property differ when there are rows to show and the keys are overwritten on
one side only. -/
theorem attachedValue_eq_iff (h : g.Redeclares f) (hvalid : f.schema.validate = .ok ())
    {limits : Limits} (hmade : plan.MadeFor limits r) (hfirst : plan.strategy = .rootFirst)
    {others : Limits} {s : Request} {other : Plan g.schema.relations}
    (hother : other.MadeFor others s) (hotherFirst : other.strategy = .rootFirst)
    {id : RelationId f.schema.relations} {redeclared : RelationId g.schema.relations}
    (hsame : g.schema.relations.get redeclared = f.schema.relations.get id)
    (roots : List Record) (root : Record) :
    g.attachedValue s other roots redeclared root = f.attachedValue r plan roots id root ↔
      f.keyedRows id root = [] ∨
        (Overwritten other.hydrated roots redeclared ↔ Overwritten plan.hydrated roots id) := by
  unfold attachedValue
  rw [relatedRows_of_rootFirst hmade hfirst, relatedRows_of_rootFirst hother hotherFirst,
    h.keyedRows_eq hvalid hsame, hsame]
  have hempty : (f.schema.relations.get id).attachment (Record.distinct (f.keyedRows id root)) =
      (f.schema.relations.get id).emptyValue ↔ f.keyedRows id root = [] := by
    rw [Relation.attachment_eq_emptyValue_iff, Record.distinct_eq_nil_iff]
  by_cases hg : Overwritten other.hydrated roots redeclared
  · by_cases hf : Overwritten plan.hydrated roots id
    · rw [if_pos hg, if_pos hf]
      exact iff_of_true rfl (.inr (iff_of_true hg hf))
    · rw [if_pos hg, if_neg hf, eq_comm, hempty]
      exact (or_iff_left fun hiff => hf (hiff.1 hg)).symm
  · by_cases hf : Overwritten plan.hydrated roots id
    · rw [if_neg hg, if_pos hf, hempty]
      exact (or_iff_left fun hiff => hg (hiff.2 hf)).symm
    · rw [if_neg hg, if_neg hf]
      exact iff_of_true rfl (.inr (iff_of_false hg hf))

end Redeclares

/-! ## Shown roots -/

/-- The roots of a page that reads them first. -/
def firstRoots (f : Federation Collection) (plan : Plan f.schema.relations) : List Record :=
  (f.root.getMany (windowed plan (rootRequest plan))).data

theorem firstRoots_eq (hor : plan.routing.rootOrFilters = []) :
    f.firstRoots plan = ((SortKey.sort plan.sorts.rootSorts (f.root.rows.filter fun row =>
      plan.routing.rootFilters.all (·.holds row))).drop plan.offset.toNat).take
        plan.limit.toNat := by
  have hselect : f.root.select (windowed plan (rootRequest plan)) =
      SortKey.sort plan.sorts.rootSorts (f.root.rows.filter fun row =>
        plan.routing.rootFilters.all (·.holds row)) := by
    unfold Collection.select
    apply congrArg (SortKey.sort plan.sorts.rootSorts)
    apply List.filter_congr
    intro row _
    exact Request.holds_searchTree_of_filters (q := windowed plan (rootRequest plan)) hor rfl row
  unfold firstRoots
  rw [Collection.data_getMany_of_limit rfl, hselect]
  rfl

/-- The page shows these roots with all relations of the plan. -/
theorem answer_of_rootFirst (hfit : f.FitsWords) (hvalid : f.schema.validate = .ok ())
    (hplan : f.plan r = .ok plan) (hfirst : plan.strategy = .rootFirst) :
    ∃ page, f.answer r = .ok page ∧
      page.data = (f.firstRoots plan).map (f.joinedRecord r plan (f.firstRoots plan)) := by
  have hpage := answers_rootFirst plan
  rw [← pageOfPlan_of_rootFirst hfirst f.limits] at hpage
  exact ⟨_, answer_of_plan hplan hpage,
    hydrated_eq_map hfit hvalid (Plan.make_eq_ok_iff.1 hplan) (f.firstRoots plan)⟩

namespace Redeclares

section Requests

variable (h : g.Redeclares f) (hvalid : f.schema.validate = .ok ()) (hplan : f.plan r = .ok plan)
  {names : List String} {other : Plan g.schema.relations}
  (hother : g.plan { r with relations := names } = .ok other)

include h hvalid hplan hother

theorem strategy_eq_rootFirst (hfirst : plan.strategy = .rootFirst) :
    other.strategy = .rootFirst := by
  have hjoins := (Plan.strategy_eq_rootFirst_iff (Schema.validate_eq_ok_iff.1 hvalid).2 hplan).1
    hfirst
  apply (Plan.strategy_eq_rootFirst_iff (Schema.validate_eq_ok_iff.1 (h.validate hvalid)).2
    hother).2
  intro relation hrelation
  exact hjoins relation (h.relations_perm.mem_iff.1 hrelation)

theorem all_rootFilters_eq (row : Record) :
    other.routing.rootFilters.all (·.holds row) = plan.routing.rootFilters.all (·.holds row) := by
  have hproperties := (Schema.validate_eq_ok_iff.1 hvalid).2
  have hredeclared := (Schema.validate_eq_ok_iff.1 (h.validate hvalid)).2
  rw [← (Plan.make_eq_ok_iff.1 hother).routing_eq, ← (Plan.make_eq_ok_iff.1 hplan).routing_eq,
    Bool.eq_iff_iff, Routing.all_rootFilters_iff hredeclared,
    Routing.all_rootFilters_iff hproperties]
  apply and_congr_right
  intro _
  exact forall_congr' fun relation => imp_congr_left h.relations_perm.mem_iff

/-- The same roots are shown. -/
theorem firstRoots_eq : g.firstRoots other = f.firstRoots plan := by
  have hmade := Plan.make_eq_ok_iff.1 hplan
  have hmadeOther := Plan.make_eq_ok_iff.1 hother
  have hlimit : other.limit = plan.limit := by
    rw [← hmadeOther.limit_eq, ← hmade.limit_eq, h.limits]
  have hoffset : other.offset = plan.offset := by
    rw [← hmadeOther.offset_eq, ← hmade.offset_eq, hlimit]
    rfl
  have hsorts : other.sorts.rootSorts = plan.sorts.rootSorts := by
    rw [hmadeOther.rootSorts_eq, hmade.rootSorts_eq]
  rw [Federation.firstRoots_eq (Plan.rootOrFilters_eq_nil hother),
    Federation.firstRoots_eq (Plan.rootOrFilters_eq_nil hplan), hlimit, hoffset, hsorts, h.root]
  simp only [h.all_rootFilters_eq hvalid hplan hother]

end Requests

end Redeclares

/-! ## Pages -/

/-- With the roots first, another order of declarations and another choice of relations show the
same roots, and a property that is still hydrated has the same value on a root, unless the
relation has rows for it and its keys are overwritten on one of the two pages only. -/
theorem attached_eq_iff (hfit : f.FitsWords) (hvalid : f.schema.validate = .ok ())
    (hplan : f.plan r = .ok plan) (hfirst : plan.strategy = .rootFirst) (h : g.Redeclares f)
    {names : List String} (hnames : ∀ name ∈ names, Declared f.schema.relations name) :
    let roots := f.firstRoots plan
    let record := f.joinedRecord r plan roots
    ∃ other page repage, g.plan { r with relations := names } = .ok other ∧
      f.answer r = .ok page ∧ g.answer { r with relations := names } = .ok repage ∧
      let rejoined := g.joinedRecord { r with relations := names } other roots
      page.data = roots.map record ∧ repage.data = roots.map rejoined ∧
      ∀ id ∈ plan.hydrated, ∀ redeclared ∈ other.hydrated,
        g.schema.relations.get redeclared = f.schema.relations.get id → ∀ root ∈ roots,
          ((rejoined root).get? (f.schema.relations.get id).property =
              (record root).get? (f.schema.relations.get id).property ↔
            f.keyedRows id root = [] ∨
              (Overwritten other.hydrated roots redeclared ↔
                Overwritten plan.hydrated roots id)) := by
  intro roots record
  obtain ⟨other, hother⟩ := h.exists_plan hvalid ⟨plan, hplan⟩ hnames
  have hmade := Plan.make_eq_ok_iff.1 hplan
  have hmadeOther := Plan.make_eq_ok_iff.1 hother
  have hotherFirst := h.strategy_eq_rootFirst hvalid hplan hother hfirst
  have hotherValid := h.validate hvalid
  obtain ⟨page, hpage, hdata⟩ := answer_of_rootFirst hfit hvalid hplan hfirst
  obtain ⟨repage, hrepage, hredata⟩ :=
    answer_of_rootFirst (h.fitsWords hfit) hotherValid hother hotherFirst
  rw [h.firstRoots_eq hvalid hplan hother] at hredata
  refine ⟨other, page, repage, hother, hpage, hrepage, hdata, hredata, ?_⟩
  intro id hid redeclared hredeclared hsame root _
  have hvalue := get?_joinedRecord (r := r) hvalid hmade roots root hid
  have hrevalue := get?_joinedRecord hotherValid hmadeOther roots root hredeclared
  rw [hsame] at hrevalue
  rw [hvalue, hrevalue, Option.some_inj]
  exact h.attachedValue_eq_iff hvalid hmade hfirst hmadeOther hotherFirst hsame roots root

end Federation

namespace Shop

open Federation

/-- The tier that a customer's rank names. -/
def tierAs (property : String) : Relation := .belongsTo property "tiers" "id" "rank"

/-- A customer with the tier of its rank, under two properties. -/
def graded (first second : String) : Federation Collection where
  schema := ⟨⟨"customer", "id"⟩, [tierAs first, tierAs second]⟩
  root := ⟨"customer", [customer 1 5]⟩
  bindings := [⟨tierAs first, ⟨"tier", [record [("id", 5)]]⟩⟩,
    ⟨tierAs second, ⟨"tier", [record [("id", 5)]]⟩⟩]
  aligned := rfl
  limits := ⟨10, 100, 10, true⟩

theorem fitsWords_graded (first second : String) : (graded first second).FitsWords
  | .root => show 1 < 18446744073709551616 by decide
  | .relation ⟨0, _⟩ => show 1 < 18446744073709551616 by decide
  | .relation ⟨1, _⟩ => show 1 < 18446744073709551616 by decide

theorem redeclares_graded (first second : String) :
    (graded second first).Redeclares (graded first second) where
  schema_root := rfl
  root := rfl
  limits := rfl
  bindings := List.Perm.swap ..

def gradedPlan (first second : String) : Plan (graded first second).schema.relations where
  routing := .ofRequest _ .empty
  sorts := ⟨[], []⟩
  strategy := .rootFirst
  hydrated := List.finRange 2
  limit := 10
  offset := 0

/-- A tier that is declared after the one under the field of the ranks gets lost, and it is there
when it is declared before. -/
theorem attached_eq_iff_graded : ∃ page repage, (graded "rank" "tier").answer .empty = .ok page ∧
    (graded "tier" "rank").answer .empty = .ok repage ∧ page.data.length = 1 ∧
    repage.data.map (·.get? "tier") ≠ page.data.map (·.get? "tier") := by
  have hplan : (graded "rank" "tier").plan .empty = .ok (gradedPlan "rank" "tier") := rfl
  have hother : (graded "tier" "rank").plan .empty = .ok (gradedPlan "tier" "rank") := rfl
  have hroots : (graded "rank" "tier").firstRoots (gradedPlan "rank" "tier") = [customer 1 5] := by
    cbv
  obtain ⟨other, page, repage, hsame, hpage, hrepage, hdata, hredata, hiff⟩ :=
    @attached_eq_iff _ _ _ .empty (fitsWords_graded _ _) rfl hplan rfl
      (redeclares_graded "rank" "tier") [] (List.forall_mem_nil _)
  obtain rfl : gradedPlan "tier" "rank" = other := Except.ok.inj (hother.symm.trans hsame)
  rw [hroots] at hdata hredata hiff
  refine ⟨page, repage, hpage, hrepage, by rw [hdata]; rfl, ?_⟩
  have hvalues := hiff (1 : Fin 2) (List.mem_finRange _) (0 : Fin 2) (List.mem_finRange _) rfl
    (customer 1 5) List.mem_cons_self
  have hlost : Hydration.Overwritten (gradedPlan "rank" "tier").hydrated [customer 1 5]
      (1 : Fin 2) :=
    ⟨(0 : Fin 2), List.mem_finRange _, (by decide : (0 : Fin 2) ≠ 1), rfl,
      .inr (by decide : (0 : Fin 2) < 1)⟩
  have hkept : ¬ Hydration.Overwritten (gradedPlan "tier" "rank").hydrated [customer 1 5]
      (0 : Fin 2) := by
    rintro ⟨other, -, -, -, hempty | hless⟩
    · have hnone : Hydration.emptiedIds (gradedPlan "tier" "rank").hydrated [customer 1 5] = [] := by
        cbv
      rw [hnone] at hempty
      cases hempty
    · exact Nat.not_lt_zero other.val hless
  have hrows : (graded "rank" "tier").keyedRows (1 : Fin 2) (customer 1 5) =
      [record [("id", 5)]] := by cbv
  rw [hdata, hredata]
  intro heq
  rcases hvalues.1 (List.singleton_inj.1 heq) with hempty | hsame
  · rw [hrows] at hempty
    cases hempty
  · exact hkept (hsame.2 hlost)

/-- By itself the same tier is there. -/
theorem not_forall_attached_eq_alone : ¬ ∀ (f : Federation Collection) (r : Request)
    (plan : Plan f.schema.relations), f.FitsWords → f.schema.validate = .ok () →
    f.plan r = .ok plan → plan.strategy = .rootFirst → ∀ id ∈ plan.hydrated,
    let property := (f.schema.relations.get id).property
    ∃ page alone, f.answer r = .ok page ∧
      f.answer { r with relations := [property] } = .ok alone ∧
      page.data.map (·.get? property) = alone.data.map (·.get? property) := by
  intro h
  obtain ⟨page, alone, hpage, halone, hsame⟩ := h (graded "rank" "tier") .empty
    (gradedPlan "rank" "tier") (fitsWords_graded _ _) rfl rfl rfl (1 : Fin 2) (List.mem_finRange _)
  have hlost : ((graded "rank" "tier").answer .empty).map
      (fun page => page.data.map (·.get? "tier")) = .ok [some .null] := by cbv
  have hkept : ((graded "rank" "tier").answer { Request.empty with relations := ["tier"] }).map
      (fun page => page.data.map (·.get? "tier")) =
        .ok [some (record [("id", 5)]).toJson] := by cbv
  have hanswer : (graded "rank" "tier").answer { Request.empty with relations := ["tier"] } =
      .ok alone := halone
  rw [hpage] at hlost
  rw [hanswer] at hkept
  have hvalues : [some Json.null] = [some (record [("id", 5)]).toJson] :=
    (Except.ok.inj hlost).symm.trans (hsame.trans (Except.ok.inj hkept))
  cases hvalues

end Shop

end FederatedJoin
