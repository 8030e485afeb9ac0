-- SUMMARY: Operands read the same from values and from the wire, and read back as what was written.
import FederatedJoin.Proofs.RoundTrips

/-!
# Readings of operands

There are two ways to an operand. A field of a record is read with `ofJson`,
which never fails and reads an object as null. A part of a request is read with
`ofTree?`, which tries the forms of an operand in turn and refuses an object at
any depth.

The two differ in nothing else. An integer that fits a signed word is accepted
as an integer and also as a double, so the order of the forms decides; a greater
integer is accepted as a double alone.
-/

namespace FederatedJoin

open Json (Tree)

/-! ## Values without objects -/

namespace Json

mutual

/-- The value is an object or holds one at some depth. -/
def hasObject : Json → Bool
  | .array items => anyHasObject items
  | .object _ => true
  | _ => false

def anyHasObject : List Json → Bool
  | [] => false
  | item :: rest => item.hasObject || anyHasObject rest

end

end Json

/-! ## The forms in turn -/

namespace Wire

def null? : Tree → Option Unit
  | .null => some ()
  | _ => none

def int64? : Tree → Option Int64
  | .number n => n.toInt64?
  | _ => none

def double? : Tree → Option Double
  | .number n => some n.toDouble
  | _ => none

end Wire

namespace Operand

/-- What each form of an operand reads alone, in the order in which the forms are tried. -/
def forms (tree : Tree) : List (Option Operand) :=
  [(Wire.null? tree).map fun _ => .null, (Wire.bool? tree).map .bool, (Wire.int64? tree).map .int,
    (Wire.double? tree).map .float, (Wire.string? tree).map .string,
    (Wire.list? ofTree? tree).map .list]

theorem ofTrees?_eq_mapM (trees : List Tree) : ofTrees? trees = trees.mapM ofTree? := by
  induction trees with
  | nil => rfl
  | cons tree rest ih => rw [ofTrees?, List.mapM_cons, ih]

theorem ofTree?_eq_findSome? (tree : Tree) : ofTree? tree = (forms tree).findSome? id := by
  cases tree with
  | number n =>
    simp only [ofTree?, ofNumber]
    cases h : n.toInt64? <;> simp [forms, Wire.null?, Wire.bool?, Wire.int64?, Wire.double?, h]
  | array items =>
    rw [ofTree?, ofTrees?_eq_mapM]
    cases h : items.mapM ofTree? <;>
      simp [forms, Wire.null?, Wire.bool?, Wire.int64?, Wire.double?, Wire.string?, Wire.list?, h]
  | _ => rfl

/-! ## The two readings -/

/-- The operand that a value without objects is. -/
def ofPlain? (j : Json) : Option Operand := if j.hasObject then none else some (ofJson j)

def ofPlains? (items : List Json) : Option (List Operand) :=
  if Json.anyHasObject items then none else some (ofItems items)

theorem ofPlain?_array (items : List Json) :
    ofPlain? (.array items) = (ofPlains? items).map .list := by
  rw [ofPlains?, apply_ite (Option.map Operand.list)]
  rfl

theorem ofPlains?_cons (item : Json) (rest : List Json) :
    ofPlains? (item :: rest) = do
      let item ← ofPlain? item
      let rest ← ofPlains? rest
      return item :: rest := by
  simp only [ofPlains?, ofPlain?, Json.anyHasObject, ofItems]
  by_cases hitem : item.hasObject <;> by_cases hrest : Json.anyHasObject rest <;>
    simp [hitem, hrest]

mutual

theorem ofTree?_ofJson : ∀ j : Json, ofTree? (.ofJson j) = ofPlain? j
  | .null | .bool _ | .number _ | .string _ | .object _ => rfl
  | .array items => by
    rw [Json.Tree.ofJson, ofTree?, ofTrees?_ofItems items, ofPlain?_array]

theorem ofTrees?_ofItems : ∀ items : List Json, ofTrees? (Tree.ofItems items) = ofPlains? items
  | [] => rfl
  | item :: rest => by
    rw [Tree.ofItems, ofTrees?, ofTree?_ofJson item, ofTrees?_ofItems rest, ofPlains?_cons]

end

mutual

/-- From a text too: an operand is read exactly when the text is that of a value without objects. -/
theorem ofTree?_eq_bind : ∀ tree : Tree, ofTree? tree = tree.toJson?.bind ofPlain?
  | .null | .bool _ | .number _ | .string _ | .unreadable => rfl
  | .object fields => by
    rw [ofTree?, Tree.toJson?]
    cases Tree.toFields? fields <;> rfl
  | .array items => by
    rw [ofTree?, ofTrees?_eq_bind items, Tree.toJson?]
    cases Tree.toItems? items with
    | none => rfl
    | some values => exact (ofPlain?_array values).symm

theorem ofTrees?_eq_bind : ∀ trees : List Tree,
    ofTrees? trees = (Tree.toItems? trees).bind ofPlains?
  | [] => rfl
  | tree :: rest => by
    rw [ofTrees?, ofTree?_eq_bind tree, ofTrees?_eq_bind rest, Tree.toItems?]
    cases tree.toJson? with
    | none => rfl
    | some value =>
      cases Tree.toItems? rest with
      | none => cases h : ofPlain? value <;> simp [h]
      | some values => simp [ofPlains?_cons]

end

/-! ## What was written -/

mutual

/-- A double that is not finite is written as null, and nothing else is lost. -/
theorem ofJson_toJson_iff : ∀ v : Operand, ofJson v.toJson = v ↔ v.isFinite = true
  | .null | .bool _ | .string _ => iff_of_true rfl rfl
  | .int n => iff_of_true (ofNumber_ofInt64 n) rfl
  | .float x => by
    rw [toJson, isFinite]
    by_cases hx : x.isFinite = true
    · rw [show Json.Number.ofDouble? x = some (.double x hx) from dif_pos hx]
      exact iff_of_true rfl hx
    · rw [show Json.Number.ofDouble? x = none from dif_neg hx]
      exact iff_of_false Operand.noConfusion hx
  | .list items => by
    rw [toJson, ofJson, Operand.list.injEq, ofItems_toItems_iff items, isFinite]

theorem ofItems_toItems_iff : ∀ items : List Operand,
    ofItems (toItems items) = items ↔ allFinite items = true
  | [] => iff_of_true rfl rfl
  | item :: rest => by
    rw [toItems, ofItems, List.cons_eq_cons, ofJson_toJson_iff item, ofItems_toItems_iff rest,
      allFinite, Bool.and_eq_true]

end

/-! ## Integers beyond a signed word -/

/-- An integer as an operand: beyond a signed word it is a double. -/
def ofInteger (n : Int) : Operand :=
  if n < 9223372036854775808 then .int (.ofInt n) else .float (.ofInt n)

theorem ofNumber_integer (n : Int) (h : Json.IsWord n) :
    ofNumber (.integer n h) = ofInteger n := by
  rw [ofNumber, Json.Number.toInt64?, ofInteger]
  by_cases hn : n < 9223372036854775808
  · simp [hn]
  · simp [hn, Json.Number.toDouble]

/-- The wire form of an operand is the first of its forms that fits. It is refused when there is an
object at some depth, in a value or in a text, and otherwise reads as the value does; writing an
operand and reading it gives it back unless a double in it is not finite. -/
theorem readings_agree :
    (∀ tree : Tree, ofTree? tree = (forms tree).findSome? id) ∧
    (∀ tree : Tree, ofTree? tree =
      tree.toJson?.bind fun j => if j.hasObject then none else some (ofJson j)) ∧
    (∀ j : Json, ofTree? (.ofJson j) = if j.hasObject then none else some (ofJson j)) ∧
    (∀ v : Operand, ofJson v.toJson = v ↔ v.isFinite = true) ∧
    ∀ n : UInt64, ofJson (.uint64 n) = ofInteger n.toNat ∧
      ofTree? (.ofJson (.uint64 n)) = some (ofInteger n.toNat) := by
  refine ⟨ofTree?_eq_findSome?, ofTree?_eq_bind, ofTree?_ofJson, ofJson_toJson_iff, fun n => ?_⟩
  have hinteger : ofJson (.uint64 n) = ofInteger n.toNat := by
    rw [Json.uint64, ofJson, Json.Number.ofUInt64, ofNumber_integer]
  have hplain : (Json.uint64 n).hasObject = false := rfl
  exact ⟨hinteger, by rw [ofTree?_ofJson, ofPlain?, hplain, hinteger]; rfl⟩

end Operand

end FederatedJoin
