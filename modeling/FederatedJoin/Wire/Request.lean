-- SUMMARY: The wire form of requests and pages.
import FederatedJoin.Page
import FederatedJoin.Request
import FederatedJoin.Wire.Condition

/-!
# Wire form of requests and pages

Every field of a request has a default. The parts of its window and the search
are written only when they are given. A page has no defaults.
-/

namespace FederatedJoin

open Json (Tree)

namespace Request

def toJson (r : Request) : Json :=
  .object ([("filters", .array (r.filters.map (·.toJson))),
      ("or_filters", .array (r.orFilters.map (·.toJson))),
      ("sorts", .array (r.sorts.map (·.toJson)))]
    ++ Wire.optionalField "page" (r.page.map .uint64)
    ++ Wire.optionalField "offset" (r.offset.map .uint64)
    ++ Wire.optionalField "limit" (r.limit.map .uint64)
    ++ [("relations", .array (r.relations.map .string))]
    ++ Wire.optionalField "search" (r.search.map (·.toJson)))

def ofTree? (tree : Tree) : Option Request := do
  let parts ← Wire.parts?
    ["filters", "or_filters", "sorts", "page", "offset", "limit", "relations", "search"] tree
  let filters ← parts.defaulted? "filters" [] (Wire.list? Condition.ofTree?)
  let orFilters ← parts.defaulted? "or_filters" [] (Wire.list? Condition.ofTree?)
  let sorts ← parts.defaulted? "sorts" [] (Wire.list? SortKey.ofTree?)
  let page ← parts.defaulted? "page" none (Wire.optional? Wire.uint64?)
  let offset ← parts.defaulted? "offset" none (Wire.optional? Wire.uint64?)
  let limit ← parts.defaulted? "limit" none (Wire.optional? Wire.uint64?)
  let relations ← parts.defaulted? "relations" [] (Wire.list? Wire.string?)
  let search ← parts.defaulted? "search" none (Wire.optional? SearchTree.ofTree?)
  return ⟨filters, orFilters, sorts, page, offset, limit, relations, search⟩

end Request

namespace Page

def toJson (p : Page) : Json :=
  .object [("data", .array (p.data.map (·.toJson))), ("count", .uint64 p.count),
    ("total", .uint64 p.total), ("page", .uint64 p.number), ("limit", .uint64 p.limit),
    ("pageCount", .uint64 p.pageCount)]

def ofTree? (tree : Tree) : Option Page := do
  let parts ← Wire.parts? ["data", "count", "total", "page", "limit", "pageCount"] tree
  let data ← parts.required? "data" (Wire.list? Record.ofTree?)
  let count ← parts.required? "count" Wire.uint64?
  let total ← parts.required? "total" Wire.uint64?
  let number ← parts.required? "page" Wire.uint64?
  let limit ← parts.required? "limit" Wire.uint64?
  let pageCount ← parts.required? "pageCount" Wire.uint64?
  return ⟨data, count, total, number, limit, pageCount⟩

end Page

end FederatedJoin
