-- SUMMARY: Requests for a part of one collection.
import FederatedJoin.SearchTree
import FederatedJoin.SortKey
import FederatedJoin.Word

/-!
# Requests

A request holds two lists of conditions: all of the first have to hold, or, if
the second list has conditions too, either all of the first or all of the
second. Its window is given by an offset, or by a page number that counts from
one.
-/

namespace FederatedJoin

structure Request where
  filters : List Condition
  orFilters : List Condition
  sorts : List SortKey
  page : Option UInt64
  offset : Option UInt64
  limit : Option UInt64
  relations : List String
  search : Option SearchTree
  deriving Inhabited

namespace Request

def empty : Request := ⟨[], [], [], none, none, none, [], none⟩

/-! ## Window -/

/-- The offset for pages of the given size. An explicit offset goes before a page number. -/
def offsetFor (r : Request) (limit : UInt64) : UInt64 :=
  match r.offset, r.page with
  | some offset, _ => offset
  | none, some page => Word.mulSat (Word.pred page) limit
  | none, none => 0

/-- The offset for the request's own limit; without a limit a page number means nothing. -/
def resolvedOffset (r : Request) : UInt64 :=
  match r.limit with
  | some limit => r.offsetFor limit
  | none => r.offset.getD 0

/-! ## Search tree -/

/-- The meaning of the two lists of conditions. -/
def listTree (r : Request) : SearchTree :=
  match r.filters, r.orFilters with
  | [], [] => .and []
  | filters, [] => .all filters
  | [], orFilters => .or (orFilters.map .leaf)
  | filters, orFilters => .or [.all filters, .all orFilters]

/-- The meaning of the whole request. Lists that say nothing leave no trace beside a search. -/
def searchTree (r : Request) : SearchTree :=
  match r.search with
  | none => r.listTree
  | some search => if r.listTree.isTrivial then search else .and [r.listTree, search]

/-! ## Adding to a request -/

/-- Asks in addition that the field holds one of the operands. -/
def constrain (r : Request) (field : String) (operands : List Operand) : Request :=
  { r with filters := r.filters ++ [.oneOf field operands] }

/-- Asks in addition that the field holds one of the keys. -/
def constrainKeys (r : Request) (field : String) (keys : List JoinKey) : Request :=
  r.constrain field (keys.map .ofJoinKey)

end Request

end FederatedJoin
