-- SUMMARY: JSON values whose objects hold their fields in another order, and the order that stands for all of them.
import FederatedJoin.Json.Tree
import FederatedJoin.Proofs.Dictionaries

/-!
# Order of fields

A text holds the fields of an object in some order, and a value is the same in any:
dictionaries put them in order of name. Both are ways to order the fields of every
object in a value. The dictionary of some fields holds them all if no name is
repeated, and it does not depend on the order in which they came, so a well-formed
value comes back from whatever order it was written in.
-/

namespace FederatedJoin

/-! ## Ordering the fields of every object -/

namespace Json

mutual

/-- The value with the fields of every object ordered, the inner objects first. -/
def arrange (order : List (String × Json) → List (String × Json)) : Json → Json
  | .array items => .array (arrangeItems order items)
  | .object fields => .object (order (arrangeFields order fields))
  | j => j

def arrangeItems (order : List (String × Json) → List (String × Json)) : List Json → List Json
  | [] => []
  | item :: rest => arrange order item :: arrangeItems order rest

def arrangeFields (order : List (String × Json) → List (String × Json)) :
    List (String × Json) → List (String × Json)
  | [] => []
  | (name, value) :: rest => (name, arrange order value) :: arrangeFields order rest

end

/-- Fields with distinct names come out in some order, and all of them do. -/
def Reorders (order : List (String × Json) → List (String × Json)) : Prop :=
  ∀ fields : List (String × Json), (fields.map (·.1)).Nodup → (order fields).Perm fields

theorem reorders_id : Reorders id := fun _ _ => List.Perm.refl _

theorem reorders_ofList : Reorders Dictionary.ofList := fun _ => Dictionary.ofList_perm_self

variable {order : List (String × Json) → List (String × Json)}

theorem arrangeFields_eq_map (fields : List (String × Json)) :
    arrangeFields order fields = fields.map fun p => (p.1, p.2.arrange order) := by
  induction fields with
  | nil => rfl
  | cons p rest ih => rw [arrangeFields, ih, List.map_cons]

theorem map_fst_arrangeFields (fields : List (String × Json)) :
    (arrangeFields order fields).map (·.1) = fields.map (·.1) := by
  rw [arrangeFields_eq_map, List.map_map]
  rfl

/-- A single field stays where it is. -/
theorem arrange_singleton (h : Reorders order) (name : String) (value : Json) :
    (object [(name, value)]).arrange order = object [(name, value.arrange order)] :=
  congrArg object (List.perm_singleton.1 (h _ (List.nodup_singleton name)))

mutual

theorem arrange_id : ∀ j : Json, j.arrange id = j
  | .null | .bool _ | .number _ | .string _ => rfl
  | .array items => congrArg array (arrangeItems_id items)
  | .object fields => congrArg object (arrangeFields_id fields)

theorem arrangeItems_id : ∀ items : List Json, arrangeItems id items = items
  | [] => rfl
  | item :: rest => congrArg₂ List.cons (arrange_id item) (arrangeItems_id rest)

theorem arrangeFields_id : ∀ fields : List (String × Json), arrangeFields id fields = fields
  | [] => rfl
  | (name, value) :: rest =>
    congrArg₂ List.cons (congrArg (Prod.mk name) (arrange_id value)) (arrangeFields_id rest)

end

/-! ## Names in order -/

/-- The value with the names of every object in ascending order. -/
def sorted (j : Json) : Json := j.arrange Dictionary.ofList

theorem fieldsWellFormed_ofList {pairs : List (String × Json)} (h : FieldsWellFormed pairs) :
    FieldsWellFormed (Dictionary.ofList pairs) := by
  suffices ∀ d : Dictionary Json, FieldsWellFormed d →
      FieldsWellFormed (pairs.foldl (fun d p => Dictionary.insert p.1 p.2 d) d) from this [] trivial
  induction pairs with
  | nil => exact fun _ hd => hd
  | cons p rest ih => exact fun d hd => ih h.2 _ (fieldsWellFormed_insert hd p.1 h.1)

mutual

theorem wellFormed_sorted : ∀ j : Json, j.sorted.WellFormed
  | .null | .bool _ | .number _ | .string _ => trivial
  | .array items => allWellFormed_sorted items
  | .object fields =>
    ⟨Dictionary.ascending_ofList _, fieldsWellFormed_ofList (fieldsWellFormed_sorted fields)⟩

theorem allWellFormed_sorted : ∀ items : List Json,
    AllWellFormed (arrangeItems Dictionary.ofList items)
  | [] => trivial
  | item :: rest => ⟨wellFormed_sorted item, allWellFormed_sorted rest⟩

theorem fieldsWellFormed_sorted : ∀ fields : List (String × Json),
    FieldsWellFormed (arrangeFields Dictionary.ofList fields)
  | [] => trivial
  | (_, value) :: rest => ⟨wellFormed_sorted value, fieldsWellFormed_sorted rest⟩

end

mutual

/-- Reading a value out of its own tree puts its names in order. -/
theorem toJson?_ofJson : ∀ j : Json, (Tree.ofJson j).toJson? = some j.sorted
  | .null | .bool _ | .number _ | .string _ => rfl
  | .array items => congrArg (Option.map array) (toItems?_ofItems items)
  | .object fields => congrArg (Option.map fun pairs => object (Dictionary.ofList pairs))
      (toFields?_ofFields fields)

theorem toItems?_ofItems : ∀ items : List Json,
    Tree.toItems? (Tree.ofItems items) = some (arrangeItems Dictionary.ofList items)
  | [] => rfl
  | item :: rest => by
    simp only [Tree.ofItems, Tree.toItems?, toJson?_ofJson item, toItems?_ofItems rest]
    rfl

theorem toFields?_ofFields : ∀ fields : List (String × Json),
    Tree.toFields? (Tree.ofFields fields) = some (arrangeFields Dictionary.ofList fields)
  | [] => rfl
  | (name, value) :: rest => by
    simp only [Tree.ofFields, Tree.toFields?, toJson?_ofJson value, toFields?_ofFields rest]
    rfl

end

/-- The dictionary of reordered fields is the one that they were taken from. -/
theorem ofList_arrangeFields (h : Reorders order) {fields : List (String × Json)}
    (hascending : Dictionary.Ascending fields)
    (hvalues : arrangeFields Dictionary.ofList (arrangeFields order fields) = fields) :
    Dictionary.ofList (arrangeFields Dictionary.ofList (order (arrangeFields order fields))) =
      fields := by
  have hnames := hascending.nodup
  have hordered := h (arrangeFields order fields) (by rwa [map_fst_arrangeFields])
  have hperm := hordered.map fun p => (p.1, p.2.arrange Dictionary.ofList)
  rw [← arrangeFields_eq_map, ← arrangeFields_eq_map, hvalues] at hperm
  rw [← Dictionary.ofList_eq_of_perm hnames hperm.symm, Dictionary.ofList_of_ascending hascending]

mutual

/-- Whatever order the fields of a well-formed value are put in, sorting them gives it back. -/
theorem sorted_arrange (h : Reorders order) : ∀ j : Json, j.WellFormed →
    (j.arrange order).sorted = j
  | .null, _ | .bool _, _ | .number _, _ | .string _, _ => rfl
  | .array items, hitems => congrArg array (sortedItems_arrange h items hitems)
  | .object fields, hfields =>
    congrArg object
      (ofList_arrangeFields h hfields.1 (sortedFields_arrange h fields hfields.2))

theorem sortedItems_arrange (h : Reorders order) : ∀ items : List Json, AllWellFormed items →
    arrangeItems Dictionary.ofList (arrangeItems order items) = items
  | [], _ => rfl
  | item :: rest, hitems =>
    congrArg₂ List.cons (sorted_arrange h item hitems.1) (sortedItems_arrange h rest hitems.2)

theorem sortedFields_arrange (h : Reorders order) : ∀ fields : List (String × Json),
    FieldsWellFormed fields →
    arrangeFields Dictionary.ofList (arrangeFields order fields) = fields
  | [], _ => rfl
  | (name, value) :: rest, hfields =>
    congrArg₂ List.cons (congrArg (Prod.mk name) (sorted_arrange h value hfields.1))
      (sortedFields_arrange h rest hfields.2)

end

end Json

end FederatedJoin
