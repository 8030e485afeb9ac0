-- SUMMARY: Records without doubles have one fingerprint exactly when they have one content.
import FederatedJoin.Proofs.CompactText
import FederatedJoin.Proofs.FieldOrder
import FederatedJoin.Proofs.HashJoins

/-!
# Fingerprints

The content of an object is what each name reads as, and that does not tell in which
order its fields were set, nor what a field held before. A record keeps its fields in
order of name, and so do the objects inside, so of one content there is one record. Its
fingerprint is its text, which without doubles stands for no other record. Rows with
the same fingerprint may then be taken for one, and no other row is dropped with them.
-/

namespace FederatedJoin

/-! ## Contents -/

namespace Json

open Dictionary (last?)

/-- The values are equal as JSON: the order in which the fields of an object were written does not
count, and of a repeated name only the last field does. -/
inductive SameContent : Json → Json → Prop where
  | null : SameContent .null .null
  | bool (b : Bool) : SameContent (.bool b) (.bool b)
  | number (n : Number) : SameContent (.number n) (.number n)
  | string (s : String) : SameContent (.string s) (.string s)
  | array {items others : List Json} (h : List.Forall₂ SameContent items others) :
    SameContent (.array items) (.array others)
  | object {fields others : List (String × Json)}
    (h : ∀ name, Option.Rel SameContent (last? name fields) (last? name others)) :
    SameContent (.object fields) (.object others)

/-- What a name reads as in an object whose fields were put in order. -/
theorem get?_sortedFields (name : String) (fields : List (String × Json)) :
    Dictionary.get? name (Dictionary.ofList (arrangeFields Dictionary.ofList fields)) =
      (last? name fields).map sorted := by
  rw [Dictionary.get?_ofList, arrangeFields_eq_map, Dictionary.last?_map]
  rfl

theorem sortedFields_eq_iff {fields others : List (String × Json)} :
    Dictionary.ofList (arrangeFields Dictionary.ofList fields) =
        Dictionary.ofList (arrangeFields Dictionary.ofList others) ↔
      ∀ name, (last? name fields).map sorted = (last? name others).map sorted := by
  simp only [← get?_sortedFields]
  exact ⟨fun h name => congrArg (Dictionary.get? name) h,
    Dictionary.Ascending.ext (Dictionary.ascending_ofList _) (Dictionary.ascending_ofList _)⟩

section Options

variable {α β γ : Type} {r : α → β → Prop} {a : Option α} {b : Option β} {f : α → γ} {g : β → γ}

theorem map_eq_of_rel (h : Option.Rel r a b) (hr : ∀ x, a = some x → ∀ y, r x y → f x = g y) :
    a.map f = b.map g := by
  cases h with
  | none => rfl
  | some hxy => exact congrArg some (hr _ rfl _ hxy)

theorem rel_of_map_eq (h : a.map f = b.map g)
    (hr : ∀ x, a = some x → ∀ y, f x = g y → r x y) : Option.Rel r a b := by
  cases a with
  | none =>
    cases b with
    | none => exact .none
    | some y => cases h
  | some x =>
    cases b with
    | none => cases h
    | some y => exact .some (hr x rfl y (Option.some.inj h))

end Options

mutual

theorem sorted_eq_of_sameContent : ∀ (j k : Json), j.SameContent k → j.sorted = k.sorted
  | .null, _, h | .bool _, _, h | .number _, _, h | .string _, _, h => by
    cases h
    rfl
  | .array items, _, h => by
    cases h with
    | array hitems => exact congrArg array (sortedItems_eq_of_sameContent items _ hitems)
  | .object fields, _, h => by
    cases h with
    | object hfields =>
      refine congrArg object (sortedFields_eq_iff.2 fun name => ?_)
      apply map_eq_of_rel (hfields name)
      intro value hvalue other
      exact sortedField_eq_of_sameContent fields (name, value)
        (Dictionary.mem_of_last? hvalue) other

theorem sortedItems_eq_of_sameContent : ∀ (items others : List Json),
    List.Forall₂ SameContent items others →
    arrangeItems Dictionary.ofList items = arrangeItems Dictionary.ofList others
  | [], _, .nil => rfl
  | item :: items, other :: others, .cons hitem hitems =>
    congrArg₂ List.cons (sorted_eq_of_sameContent item other hitem)
      (sortedItems_eq_of_sameContent items others hitems)

theorem sortedField_eq_of_sameContent : ∀ (fields : List (String × Json)), ∀ p ∈ fields,
    ∀ k : Json, p.2.SameContent k → p.2.sorted = k.sorted
  | (_, value) :: rest, p, hp, k, h => by
    rcases List.mem_cons.1 hp with rfl | hp
    · exact sorted_eq_of_sameContent value k h
    · exact sortedField_eq_of_sameContent rest p hp k h

end

mutual

theorem sameContent_of_sorted_eq : ∀ (j k : Json), j.sorted = k.sorted → j.SameContent k
  | .null, k, h => by
    cases k with
    | null => exact .null
    | _ => cases h
  | .bool b, k, h => by
    cases k with
    | bool _ =>
      cases h
      exact .bool b
    | _ => cases h
  | .number n, k, h => by
    cases k with
    | number _ =>
      cases h
      exact .number n
    | _ => cases h
  | .string s, k, h => by
    cases k with
    | string _ =>
      cases h
      exact .string s
    | _ => cases h
  | .array items, k, h => by
    cases k with
    | array others => exact .array (sameContent_of_sortedItems_eq items others (array.inj h))
    | _ => cases h
  | .object fields, k, h => by
    cases k with
    | object others =>
      refine .object fun name => ?_
      apply rel_of_map_eq (sortedFields_eq_iff.1 (object.inj h) name)
      intro value hvalue other
      exact sameContent_of_sortedField_eq fields (name, value)
        (Dictionary.mem_of_last? hvalue) other
    | _ => cases h

theorem sameContent_of_sortedItems_eq : ∀ (items others : List Json),
    arrangeItems Dictionary.ofList items = arrangeItems Dictionary.ofList others →
    List.Forall₂ SameContent items others
  | [], [], _ => .nil
  | item :: items, other :: others, h =>
    .cons (sameContent_of_sorted_eq item other (List.cons.inj h).1)
      (sameContent_of_sortedItems_eq items others (List.cons.inj h).2)

theorem sameContent_of_sortedField_eq : ∀ (fields : List (String × Json)), ∀ p ∈ fields,
    ∀ k : Json, p.2.sorted = k.sorted → p.2.SameContent k
  | (_, value) :: rest, p, hp, k, h => by
    rcases List.mem_cons.1 hp with rfl | hp
    · exact sameContent_of_sorted_eq value k h
    · exact sameContent_of_sortedField_eq rest p hp k h

end

/-- Putting the names of every object in order leaves nothing but the content. -/
theorem sameContent_iff {j k : Json} : j.SameContent k ↔ j.sorted = k.sorted :=
  ⟨sorted_eq_of_sameContent j k, sameContent_of_sorted_eq j k⟩

end Json

/-! ## Records -/

namespace Record

/-- The record whose fields were set one after the other, and in the same way those of the objects
inside. -/
def ofFields (fields : List (String × Json)) : Record :=
  fields.foldl (fun r p => r.set p.1 p.2.sorted) .empty

theorem toJson_ofFields (fields : List (String × Json)) :
    (ofFields fields).toJson = (Json.object fields).sorted := by
  suffices ∀ r : Record, (fields.foldl (fun r p => r.set p.1 p.2.sorted) r).fields =
      (fields.map fun p => (p.1, p.2.sorted)).foldl (fun d p => Dictionary.insert p.1 p.2 d)
        r.fields by
    rw [Json.sorted, Json.arrange, Json.arrangeFields_eq_map]
    exact congrArg Json.object (this .empty)
  induction fields with
  | nil => exact fun _ => rfl
  | cons p rest ih => exact fun r => ih (r.set p.1 p.2.sorted)

theorem fingerprint_inj {a b : Record} (ha : a.toJson.Integral) (hb : b.toJson.Integral) :
    a.fingerprint = b.fingerprint ↔ a = b :=
  (Json.compact_inj ha hb).trans
    ⟨fun h => congrArg Record.mk (Json.object.inj h), congrArg toJson⟩

/-- In whatever order their fields were set, and whatever these held before, two records without
doubles have the same fingerprint exactly when they have the same content. -/
theorem fingerprint_ofFields_eq_iff {fields others : List (String × Json)}
    (hfields : (ofFields fields).toJson.Integral) (hothers : (ofFields others).toJson.Integral) :
    (ofFields fields).fingerprint = (ofFields others).fingerprint ↔
      (Json.object fields).SameContent (.object others) := by
  have hcompact := Json.compact_inj hfields hothers
  rw [toJson_ofFields, toJson_ofFields, ← Json.sameContent_iff] at hcompact
  rw [← hcompact, ← toJson_ofFields, ← toJson_ofFields]
  rfl

end Record

namespace Shop

/-- A note with quotes, a backslash and a control character, and integers beyond a signed word. -/
def noted : List (String × Json) :=
  [("note", .string "\"7\" \\ \x01"),
    ("lines", .array [.object [("price", .int64 (-7)), ("count", .uint64 18446744073709551615)]])]

/-- The same contents in another order; the note was changed. -/
def renoted : List (String × Json) :=
  [("lines", .array [.object [("count", .uint64 18446744073709551615), ("price", .int64 (-7))]]),
    ("note", .null), ("note", .string "\"7\" \\ \x01")]

theorem fingerprint_noted : (Record.ofFields noted).toJson.Integral ∧
    (Record.ofFields renoted).toJson.Integral ∧
    (Record.ofFields noted).fingerprint = (Record.ofFields renoted).fingerprint := by
  have hnoted : (Record.ofFields noted).toJson.Integral :=
    ⟨⟨⟨trivial, trivial, trivial⟩, trivial⟩, trivial, trivial⟩
  have hrenoted : (Record.ofFields renoted).toJson.Integral :=
    ⟨⟨⟨trivial, trivial, trivial⟩, trivial⟩, trivial, trivial⟩
  have hcontent : (Json.object noted).SameContent (.object renoted) := Json.sameContent_iff.2 rfl
  exact ⟨hnoted, hrenoted, (Record.fingerprint_ofFields_eq_iff hnoted hrenoted).2 hcontent⟩

end Shop

/-! ## Related rows -/

namespace RelatedRows

/-- Without doubles the group of a key holds every row that has it, not only one of each text. -/
theorem mem_group_ofRecords_iff {relation : Relation} {rows : List Record} {key : JoinKey}
    (hrows : ∀ row ∈ rows, row.toJson.Integral) {row : Record} :
    row ∈ (ofRecords relation rows).group key ↔
      row ∈ rows ∧ row.joinKey? relation.relationKeyField = some key := by
  have hkept {shown : Record} (h : shown ∈ (ofRecords relation rows).group key) :
      shown ∈ rows ∧ shown.joinKey? relation.relationKeyField = some key := by
    rw [group_ofRecords] at h
    simpa using Record.mem_of_mem_distinct h
  refine ⟨hkept, fun ⟨hrow, hkey⟩ => ?_⟩
  obtain ⟨shown, hshown, hsame⟩ := exists_mem_group hrow hkey
  rw [Record.fingerprint_inj (hrows _ (hkept hshown).1) (hrows _ hrow)] at hsame
  exact hsame ▸ hshown

end RelatedRows

end FederatedJoin
