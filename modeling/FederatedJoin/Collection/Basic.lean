-- SUMMARY: Collections of records held in memory, and their answers to requests.
import FederatedJoin.Failure
import FederatedJoin.Page
import FederatedJoin.Request

/-!
# Collections

A collection answers a request with the rows on which its search tree holds,
sorted by its keys and otherwise in storage order, and cuts the request's window
out of that list.
-/

namespace FederatedJoin

structure Collection where
  entity : String
  rows : List Record
  deriving Inhabited

namespace Collection

def empty (entity : String) : Collection := ⟨entity, []⟩

def insert (c : Collection) (row : Record) : Collection := { c with rows := c.rows ++ [row] }

/-- Every row that answers the request, whatever its window. -/
def select (c : Collection) (r : Request) : List Record :=
  SortKey.sort r.sorts (c.rows.filter (r.searchTree.holds ·))

/-- Without a limit the page is as large as the whole answer. -/
def getMany (c : Collection) (r : Request) : Page :=
  let matched := c.select r
  let total := UInt64.ofNat matched.length
  let offset := r.resolvedOffset
  let limit := r.limit.getD total
  .ofWindow ((matched.drop offset.toNat).take limit.toNat) total offset limit

/-- The same page where sums are checked. -/
def getMany? (c : Collection) (r : Request) : Option Page :=
  let page := c.getMany r
  Page.ofWindow? page.data page.total r.resolvedOffset (r.limit.getD page.total)

def getOne (c : Collection) (r : Request) : Except ProviderFailure Record :=
  match c.select r with
  | [] => .error (.notFound c.entity)
  | row :: _ => .ok row

end Collection

end FederatedJoin
