-- SUMMARY: Search trees, conditions joined by "and" and "or".
import FederatedJoin.Condition.Evaluation

/-!
# Search trees

The empty conjunction holds of every record, the empty disjunction of none.
-/

namespace FederatedJoin

inductive SearchTree where
  | and (children : List SearchTree)
  | or (children : List SearchTree)
  | condition (c : Condition)
  deriving Inhabited

namespace SearchTree

mutual

def holds (r : Record) : SearchTree → Bool
  | .and children => allHold r children
  | .or children => anyHolds r children
  | .condition c => c.holds r

def allHold (r : Record) : List SearchTree → Bool
  | [] => true
  | child :: rest => holds r child && allHold r rest

def anyHolds (r : Record) : List SearchTree → Bool
  | [] => false
  | child :: rest => holds r child || anyHolds r rest

end

mutual

/-- Made of conjunctions alone. -/
def isTrivial : SearchTree → Bool
  | .and children => allTrivial children
  | _ => false

def allTrivial : List SearchTree → Bool
  | [] => true
  | child :: rest => isTrivial child && allTrivial rest

end

/-- A leaf; the tag of its condition no longer counts. -/
def leaf (c : Condition) : SearchTree := .condition c.untagged

/-- All of the conditions. One condition needs no conjunction around it. -/
def all : List Condition → SearchTree
  | [c] => leaf c
  | cs => .and (cs.map leaf)

/-! ## Lists of children -/

theorem allHold_eq_all (r : Record) (children : List SearchTree) :
    allHold r children = children.all (holds r) := by
  induction children with
  | nil => rfl
  | cons child rest ih => simp [allHold, ih]

theorem anyHolds_eq_any (r : Record) (children : List SearchTree) :
    anyHolds r children = children.any (holds r) := by
  induction children with
  | nil => rfl
  | cons child rest ih => simp [anyHolds, ih]

@[simp] theorem holds_leaf (r : Record) (c : Condition) : (leaf c).holds r = c.holds r := by
  simp [leaf, holds]

end SearchTree

end FederatedJoin
