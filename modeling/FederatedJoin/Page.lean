-- SUMMARY: Pages, the answers of a collection to a request for many records.
import FederatedJoin.Record
import FederatedJoin.Word

/-!
# Pages

Page arithmetic is that of 64-bit words. A page size of zero counts as one, but
the number of a page is a sum, which can be beyond the words. Where sums are
checked, such a page is not made, and what asked for it ends there: `ofWindow?`.
Where they are not, its number wraps around to zero: `ofWindow`.
-/

namespace FederatedJoin

structure Page where
  data : List Record
  /-- How many records are on this page. -/
  count : UInt64
  /-- How many records match on all pages. -/
  total : UInt64
  /-- The page's number, counted from one. -/
  number : UInt64
  limit : UInt64
  pageCount : UInt64
  deriving Inhabited

namespace Page

/-- `total / limit`, rounded up; no pages of size zero are needed. -/
def pagesFor (total limit : UInt64) : UInt64 :=
  if limit = 0 then 0
  else if total % limit = 0 then total / limit else total / limit + 1

def atLeastOne (limit : UInt64) : UInt64 := if limit = 0 then 1 else limit

/-- The page of this number. -/
def withNumber (data : List Record) (total limit number : UInt64) : Page :=
  { data
    count := UInt64.ofNat data.length
    total
    number
    limit
    pageCount := pagesFor total limit }

/-- The page that starts at `offset`, whose number may have wrapped around. -/
def ofWindow (data : List Record) (total offset limit : UInt64) : Page :=
  let limit := atLeastOne limit
  withNumber data total limit (offset / limit + 1)

/-- The page that starts at `offset`, unless its number is beyond the words. -/
def ofWindow? (data : List Record) (total offset limit : UInt64) : Option Page :=
  let limit := atLeastOne limit
  (Word.succ? (offset / limit)).map (withNumber data total limit)

def empty (offset limit : UInt64) : Page := ofWindow [] 0 offset limit

def empty? (offset limit : UInt64) : Option Page := ofWindow? [] 0 offset limit

@[simp] theorem data_ofWindow (data : List Record) (total offset limit : UInt64) :
    (ofWindow data total offset limit).data = data := rfl

@[simp] theorem total_ofWindow (data : List Record) (total offset limit : UInt64) :
    (ofWindow data total offset limit).total = total := rfl

def isEmpty (p : Page) : Bool := p.data.isEmpty

end Page

end FederatedJoin
