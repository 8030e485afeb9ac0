-- SUMMARY: Sort keys compare records both ways alike, and as a total preorder where their columns allow it.
import FederatedJoin.Proofs.StableSorts
import FederatedJoin.SortKey

/-!
# Sorting by sort keys

Comparing two records the other way round turns the answer around, whatever they
hold. Operands of different types have no order, though, and where a column mixes
them, ties need not be transitive. Sort keys are transitive where each of their
columns is; and so are uniform columns, of nulls and values of one type among
booleans, integers and strings.
-/

namespace FederatedJoin

open Std

/-! ## The other way round -/

theorem Double.compare?_swap (x y : Double) :
    y.compare? x = (x.compare? y).map Ordering.swap := by
  unfold compare?
  rw [Bool.or_comm]
  split
  · rfl
  · exact congrArg some OrientedCmp.eq_swap

namespace Operand

theorem compare?_swap (a b : Operand) : b.compare? a = (a.compare? b).map Ordering.swap := by
  cases a with
  | null => cases b <;> rfl
  | list items => cases b <;> rfl
  | bool a =>
    cases b with
    | bool b => exact congrArg some OrientedCmp.eq_swap
    | _ => rfl
  | int a =>
    cases b with
    | int b => exact congrArg some OrientedCmp.eq_swap
    | float b => exact Double.compare?_swap (Double.ofInt a.toInt) b
    | _ => rfl
  | float a =>
    cases b with
    | int b => exact Double.compare?_swap a (Double.ofInt b.toInt)
    | float b => exact Double.compare?_swap a b
    | _ => rfl
  | string a =>
    cases b with
    | string b => exact congrArg some OrientedCmp.eq_swap
    | _ => rfl

theorem compareNullsFirst_swap (a b : Operand) :
    a.compareNullsFirst b = (b.compareNullsFirst a).swap := by
  unfold compareNullsFirst
  rw [compare?_swap b a]
  cases a.isNull with
  | true => cases b.isNull <;> rfl
  | false =>
    cases b.isNull with
    | true => rfl
    | false => cases b.compare? a <;> rfl

end Operand

namespace SortKey

instance (key : SortKey) : OrientedCmp key.compare where
  eq_swap := by
    intro a b
    unfold compare
    cases key.direction with
    | ascending => exact Operand.compareNullsFirst_swap ..
    | descending => exact congrArg Ordering.swap (Operand.compareNullsFirst_swap ..)

instance (keys : List SortKey) : OrientedCmp (compareAll keys) where
  eq_swap := by
    intro a b
    induction keys with
    | nil => rfl
    | cons key rest ih =>
      unfold compareAll
      rw [ih, @OrientedCmp.eq_swap _ key.compare _ a b, Ordering.swap_then]

end SortKey

/-! ## Columns -/

/-- The order of records by one of their fields, nulls first. -/
def compareColumn (field : String) (a b : Record) : Ordering :=
  (a.value field).compareNullsFirst (b.value field)

instance (field : String) : OrientedCmp (compareColumn field) where
  eq_swap := Operand.compareNullsFirst_swap ..

namespace SortKey

open Sorting

/-- The root's sort key that ascends on a field. -/
def ascending (field : String) : SortKey := ⟨field, .ascending, none⟩

theorem transitiveOn_compare {rows : List Record} {key : SortKey}
    (h : TransitiveOn (compareColumn key.field) rows) : TransitiveOn key.compare rows := by
  intro a ha b hb c hc
  unfold compare
  cases key.direction with
  | ascending => exact h a ha b hb c hc
  | descending =>
    simp only [← Operand.compareNullsFirst_swap]
    exact fun hab hbc => h c hc b hb a ha hbc hab

/-- Where the columns are transitive, so are the sort keys on them. -/
theorem transitiveOn_compareAll {rows : List Record} {keys : List SortKey}
    (h : ∀ key ∈ keys, TransitiveOn (compareColumn key.field) rows) :
    TransitiveOn (compareAll keys) rows := by
  induction keys with
  | nil => exact fun _ _ _ _ _ _ _ _ => rfl
  | cons key rest ih =>
    have hrest := ih fun other hother => h other (List.mem_cons_of_mem _ hother)
    exact (transitiveOn_compare (h key List.mem_cons_self)).lex hrest

end SortKey

/-! ## Uniform columns -/

/-- All values of the field are nulls, or all others are booleans, or integers, or strings. -/
def Uniform (rows : List Record) (field : String) : Prop :=
  (∀ row ∈ rows, row.value field = .null ∨ ∃ b, row.value field = .bool b) ∨
  (∀ row ∈ rows, row.value field = .null ∨ ∃ n, row.value field = .int n) ∨
  (∀ row ∈ rows, row.value field = .null ∨ ∃ s, row.value field = .string s)

theorem Uniform.mono {rows part : List Record} {field : String} (h : Uniform rows field)
    (hpart : ∀ row ∈ part, row ∈ rows ∨ row.value field = .null) : Uniform part field := by
  have hkeep : ∀ {kind : Record → Prop}, (∀ row ∈ rows, row.value field = .null ∨ kind row) →
      ∀ row ∈ part, row.value field = .null ∨ kind row := by
    intro kind hkind row hrow
    rcases hpart row hrow with hmem | hnull
    · exact hkind row hmem
    · exact .inl hnull
  rcases h with hbools | hints | hstrings
  · exact .inl (hkeep hbools)
  · exact .inr (.inl (hkeep hints))
  · exact .inr (.inr (hkeep hstrings))

/-- On a uniform column the order of operands is that of some type of values, nulls first. -/
theorem Uniform.transitiveOn {rows : List Record} {field : String} (h : Uniform rows field) :
    Sorting.TransitiveOn (compareColumn field) rows := by
  rcases h with h | h | h
  · have hagree : ∀ a ∈ rows, ∀ b ∈ rows, compareColumn field a b =
        compareOn (fun row : Record => (row.value field).toBool?) a b := by
      intro a ha b hb
      rcases h a ha with hv | ⟨v, hv⟩ <;> rcases h b hb with hw | ⟨w, hw⟩ <;>
        simp only [compareColumn, hv, hw, compareOn] <;> rfl
    exact Sorting.transitiveOn_of_agree hagree
  · have hagree : ∀ a ∈ rows, ∀ b ∈ rows, compareColumn field a b =
        compareOn (fun row : Record => (row.value field).toInt64?.map (·.toInt)) a b := by
      intro a ha b hb
      rcases h a ha with hv | ⟨v, hv⟩ <;> rcases h b hb with hw | ⟨w, hw⟩ <;>
        simp only [compareColumn, hv, hw, compareOn] <;> rfl
    exact Sorting.transitiveOn_of_agree hagree
  · have hagree : ∀ a ∈ rows, ∀ b ∈ rows, compareColumn field a b =
        compareOn (fun row : Record => (row.value field).toString?) a b := by
      intro a ha b hb
      rcases h a ha with hv | ⟨v, hv⟩ <;> rcases h b hb with hw | ⟨w, hw⟩ <;>
        simp only [compareColumn, hv, hw, compareOn] <;> rfl
    exact Sorting.transitiveOn_of_agree hagree

/-- On uniform columns sort keys compare as a total preorder. -/
theorem SortKey.exists_compareAll {rows : List Record} {keys : List SortKey}
    (h : ∀ key ∈ keys, Uniform rows key.field) :
    ∃ cmp : Record → Record → Ordering, TransCmp cmp ∧
      ∀ a ∈ rows, ∀ b ∈ rows, compareAll keys a b = cmp a b :=
  (transitiveOn_compareAll fun key hkey => (h key hkey).transitiveOn).exists_transCmp

end FederatedJoin
