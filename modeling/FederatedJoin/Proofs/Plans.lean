-- SUMMARY: What holds of a plan that was made, and plans of requests that differ in their windows.
import FederatedJoin.Plan

/-!
# Plans that were made

Planning stops at the first fault, so a plan stands for a request without one.
The window of a request has no part in its faults: requests that differ in
their windows have plans that differ in theirs.
-/

namespace FederatedJoin

namespace Page

theorem toNat_atLeastOne_ne_zero (limit : UInt64) : (atLeastOne limit).toNat ≠ 0 := by
  unfold atLeastOne
  split
  · simp
  · next h =>
    intro h'
    apply h
    exact UInt64.toNat_inj.1 (by simpa using h')

theorem atLeastOne_of_ne_zero {limit : UInt64} (h : limit.toNat ≠ 0) : atLeastOne limit = limit :=
  if_neg fun h' => h (by rw [h']; rfl)

end Page

namespace Plan

variable {relations : List Relation} {limits : Limits} {r : Request} {plan : Plan relations}

theorem bind_eq_ok_iff {α β : Type} {x : Except Failure α} {g : α → Except Failure β} {b : β} :
    x >>= g = .ok b ↔ ∃ a, x = .ok a ∧ g a = .ok b := by
  cases x with
  | error e =>
    refine ⟨fun h => ?_, fun ⟨a, ha, _⟩ => ?_⟩
    · cases h
    · cases ha
  | ok a =>
    refine ⟨fun h => ⟨a, rfl, h⟩, fun ⟨a', ha, h⟩ => ?_⟩
    cases ha
    exact h

/-- The request passes the checks, and the parts of the plan are made from it. -/
structure MadeFor (plan : Plan relations) (limits : Limits) (r : Request) : Prop where
  search : checkSearch r = .ok ()
  operands : checkOperands (r.filters ++ r.orFilters) = .ok ()
  tags : checkTags plan.routing = .ok ()
  rootOr : checkRootOr plan.routing = .ok ()
  owners : checkOwners plan.routing plan.sorts = .ok ()
  uniqueness : checkUniqueness plan.routing = .ok ()
  chain : checkChain plan.strategy = .ok ()
  routing_eq : Routing.ofRequest relations r = plan.routing
  sorts_eq : SortSplit.ofRequest relations r = .ok plan.sorts
  strategy_eq : Strategy.select plan.routing plan.sorts = plan.strategy
  hydrated_eq : hydratedRelations plan.strategy r = .ok plan.hydrated
  limit_eq : Page.atLeastOne (r.limit.getD limits.defaultLimit) = plan.limit
  offset_eq : r.offsetFor plan.limit = plan.offset

theorem make_eq_ok_iff : make relations limits r = .ok plan ↔ plan.MadeFor limits r := by
  simp only [make, bind_eq_ok_iff]
  constructor
  · rintro ⟨⟨⟩, hsearch, ⟨⟩, hoperands, ⟨⟩, htags, ⟨⟩, hor, sorts, hsorts, ⟨⟩, howners, ⟨⟩, hunique,
      ⟨⟩, hchain, hydrated, hhydrated, hplan⟩
    cases hplan
    exact ⟨hsearch, hoperands, htags, hor, howners, hunique, hchain, rfl, hsorts, rfl, hhydrated,
      rfl, rfl⟩
  · intro h
    rw [h.routing_eq, h.limit_eq, h.offset_eq]
    refine ⟨(), h.search, (), h.operands, (), h.tags, (), h.rootOr, plan.sorts, h.sorts_eq,
      (), h.owners, (), h.uniqueness, ?_⟩
    rw [h.strategy_eq]
    exact ⟨(), h.chain, plan.hydrated, h.hydrated_eq, rfl⟩

/-- Planned roots have no second list of conditions. -/
theorem rootOrFilters_eq_nil (h : make relations limits r = .ok plan) :
    plan.routing.rootOrFilters = [] := by
  have hor := (make_eq_ok_iff.1 h).rootOr
  unfold checkRootOr at hor
  split at hor
  · next hempty => exact List.isEmpty_iff.1 hempty
  · cases hor

theorem toNat_limit_ne_zero (h : make relations limits r = .ok plan) : plan.limit.toNat ≠ 0 :=
  (make_eq_ok_iff.1 h).limit_eq ▸ Page.toNat_atLeastOne_ne_zero _

/-- Whether the root's provider sorts and pages the discovered keys. -/
def isRootOrdered (plan : Plan relations) : Bool :=
  plan.sorts.relationSorts.isEmpty && !plan.sorts.rootSorts.isEmpty

/-- The plan with another window. -/
def windowed (plan : Plan relations) (limit offset : UInt64) : Plan relations :=
  { plan with limit := limit, offset := offset }

theorem make_windowed (h : make relations limits r = .ok plan) (page offset : Option UInt64)
    {limit : UInt64} (hlimit : limit.toNat ≠ 0) :
    make relations limits { r with page := page, offset := offset, limit := some limit } =
      .ok (plan.windowed limit
        ({ r with page := page, offset := offset, limit := some limit }.offsetFor limit)) := by
  have hmade := make_eq_ok_iff.1 h
  exact make_eq_ok_iff.2 { hmade with
    limit_eq := Page.atLeastOne_of_ne_zero hlimit
    offset_eq := rfl }

end Plan

end FederatedJoin
