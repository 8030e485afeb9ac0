-- SUMMARY: The wire form of plan summaries.
import FederatedJoin.Plan
import FederatedJoin.Wire.Condition

/-!
# Wire form of plans
-/

namespace FederatedJoin.PlanSummary

def toJson (p : PlanSummary) : Json :=
  .object [("strategy", .string p.strategy),
    ("driving_relation", (p.drivingRelation.map .string).getD .null),
    ("chain", .array (p.chain.map .string)),
    ("hydrated", .array (p.hydrated.map .string)),
    ("root_filters", .array (p.rootFilters.map (·.toJson))),
    ("relation_sorts", .array (p.relationSorts.map (·.toJson))),
    ("root_sorts", .array (p.rootSorts.map (·.toJson))),
    ("limit", .uint64 p.limit),
    ("offset", .uint64 p.offset)]

end FederatedJoin.PlanSummary
