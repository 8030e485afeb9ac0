-- SUMMARY: Sort keys order rows as a total preorder exactly if none of their columns has a clash.
import FederatedJoin.Proofs.Answers
import FederatedJoin.Proofs.RoundedOrder
import FederatedJoin.Proofs.SortOrder

/-!
# The order of columns

What is less than a lesser value is less, integers and doubles mixed: rounding
keeps the order. Ties are another matter. A value ties with all that it has no
order with, so one of another type may tie with a lesser and a greater one at
once. Such a clash is the only way for a column, and for sort keys on it, to
miss the laws of a total preorder.
-/

namespace FederatedJoin

open Std

/-! ## Values in order -/

namespace Double

variable {x y z : Double}

theorem compare?_eq_some_lt :
    x.compare? y = some .lt ↔ x.isNaN = false ∧ y.isNaN = false ∧ x.rank < y.rank := by
  unfold compare?
  cases x.isNaN <;> cases y.isNaN <;> simp [Int.compare_eq_lt]

theorem compare?_lt_trans (hxy : x.compare? y = some .lt) (hyz : y.compare? z = some .lt) :
    x.compare? z = some .lt := by
  obtain ⟨hx, -, hlt⟩ := compare?_eq_some_lt.1 hxy
  obtain ⟨-, hz, hlt'⟩ := compare?_eq_some_lt.1 hyz
  exact compare?_eq_some_lt.2 ⟨hx, hz, Int.lt_trans hlt hlt'⟩

theorem compare?_ofInt_lt_of_le {m n : Int} (h : m ≤ n) (hlt : (ofInt n).compare? z = some .lt) :
    (ofInt m).compare? z = some .lt := by
  obtain ⟨-, hz, hrank⟩ := compare?_eq_some_lt.1 hlt
  exact compare?_eq_some_lt.2 ⟨isNaN_ofInt m, hz, Int.lt_of_le_of_lt (rank_ofInt_mono h) hrank⟩

theorem compare?_lt_ofInt_of_le {m n : Int} (h : m ≤ n) (hlt : x.compare? (ofInt m) = some .lt) :
    x.compare? (ofInt n) = some .lt := by
  obtain ⟨hx, -, hrank⟩ := compare?_eq_some_lt.1 hlt
  exact compare?_eq_some_lt.2 ⟨hx, isNaN_ofInt n, Int.lt_of_lt_of_le hrank (rank_ofInt_mono h)⟩

/-- Integers with a double between them are in order, whatever rounding did to them. -/
theorem lt_of_compare?_ofInt_lt {m n : Int} (hm : (ofInt m).compare? y = some .lt)
    (hn : y.compare? (ofInt n) = some .lt) : m < n := by
  obtain ⟨-, -, hlow⟩ := compare?_eq_some_lt.1 hm
  obtain ⟨-, -, hhigh⟩ := compare?_eq_some_lt.1 hn
  apply Classical.byContradiction
  intro h
  have hle := rank_ofInt_mono (Int.not_lt.1 h)
  omega

end Double

namespace Operand

variable {a b c : Operand}

theorem compare?_int_eq_some_lt {m n : Int64} :
    (int m).compare? (int n) = some .lt ↔ m.toInt < n.toInt := by
  simp only [compare?, Option.some.injEq, Int.compare_eq_lt]

theorem compare?_lt_trans (hab : a.compare? b = some .lt) (hbc : b.compare? c = some .lt) :
    a.compare? c = some .lt := by
  cases a with
  | null => cases hab
  | list _ => cases hab
  | bool a =>
    cases b with
    | bool b =>
      cases c with
      | bool c =>
        exact congrArg some (TransCmp.lt_trans (Option.some.inj hab) (Option.some.inj hbc))
      | _ => cases hbc
    | _ => cases hab
  | string a =>
    cases b with
    | string b =>
      cases c with
      | string c =>
        exact congrArg some (TransCmp.lt_trans (Option.some.inj hab) (Option.some.inj hbc))
      | _ => cases hbc
    | _ => cases hab
  | int a =>
    cases b with
    | int b =>
      have hlt := compare?_int_eq_some_lt.1 hab
      cases c with
      | int c => exact compare?_int_eq_some_lt.2 (Int.lt_trans hlt (compare?_int_eq_some_lt.1 hbc))
      | float c => exact Double.compare?_ofInt_lt_of_le (Int.le_of_lt hlt) hbc
      | _ => cases hbc
    | float b =>
      cases c with
      | int c => exact compare?_int_eq_some_lt.2 (Double.lt_of_compare?_ofInt_lt hab hbc)
      | float c => exact Double.compare?_lt_trans hab hbc
      | _ => cases hbc
    | _ => cases hab
  | float a =>
    cases b with
    | int b =>
      cases c with
      | int c =>
        exact Double.compare?_lt_ofInt_of_le (Int.le_of_lt (compare?_int_eq_some_lt.1 hbc)) hab
      | float c => exact Double.compare?_lt_trans hab hbc
      | _ => cases hbc
    | float b =>
      cases c with
      | int c => exact Double.compare?_lt_trans hab hbc
      | float c => exact Double.compare?_lt_trans hab hbc
      | _ => cases hbc
    | _ => cases hab

/-! ## Nulls first -/

theorem isNull_of_compare? {order : Ordering} (h : a.compare? b = some order) :
    a.isNull = false ∧ b.isNull = false := by
  cases a with
  | null => cases h
  | _ =>
    cases b with
    | null => cases h
    | _ => exact ⟨rfl, rfl⟩

theorem compareNullsFirst_of_not_null (ha : a.isNull = false) (hb : b.isNull = false) :
    a.compareNullsFirst b = (a.compare? b).getD .eq := by
  simp only [compareNullsFirst, ha, hb]

theorem compareNullsFirst_of_compare? {order : Ordering} (h : a.compare? b = some order) :
    a.compareNullsFirst b = order := by
  obtain ⟨ha, hb⟩ := isNull_of_compare? h
  rw [compareNullsFirst_of_not_null ha hb, h, Option.getD_some]

theorem compareNullsFirst_eq_lt : a.compareNullsFirst b = .lt ↔
    a.isNull = true ∧ b.isNull = false ∨ a.compare? b = some .lt := by
  constructor
  · intro h
    cases ha : a.isNull with
    | true =>
      cases hb : b.isNull with
      | true => simp only [compareNullsFirst, ha, hb, reduceCtorEq] at h
      | false => exact .inl ⟨rfl, rfl⟩
    | false =>
      cases hb : b.isNull with
      | true => simp only [compareNullsFirst, ha, hb, reduceCtorEq] at h
      | false =>
        rw [compareNullsFirst_of_not_null ha hb] at h
        cases horder : a.compare? b with
        | none =>
          rw [horder] at h
          cases h
        | some order =>
          rw [horder] at h
          exact .inr (congrArg some h)
  · rintro (⟨ha, hb⟩ | h)
    · simp only [compareNullsFirst, ha, hb]
    · exact compareNullsFirst_of_compare? h

theorem compareNullsFirst_lt_trans (hab : a.compareNullsFirst b = .lt)
    (hbc : b.compareNullsFirst c = .lt) : a.compareNullsFirst c = .lt := by
  rw [compareNullsFirst_eq_lt] at *
  rcases hab with ⟨ha, hb⟩ | hab <;> rcases hbc with ⟨hnull, hc⟩ | hbc
  · exact .inl ⟨ha, hc⟩
  · exact .inl ⟨ha, (isNull_of_compare? hbc).2⟩
  · rw [(isNull_of_compare? hab).2] at hnull
    cases hnull
  · exact .inr (compare?_lt_trans hab hbc)

/-! ## Values that are no doubles -/

/-- Beside doubles only equal values compare as equal. -/
theorem eq_of_compare?_eq (ha : ∀ x, a ≠ .float x) (hb : ∀ x, b ≠ .float x)
    (h : a.compare? b = some .eq) : a = b := by
  cases a with
  | null => cases h
  | list _ => cases h
  | float x => exact absurd rfl (ha x)
  | bool a =>
    cases b with
    | bool b => exact congrArg bool (LawfulEqCmp.eq_of_compare (Option.some.inj h))
    | _ => cases h
  | string a =>
    cases b with
    | string b => exact congrArg string (LawfulEqCmp.eq_of_compare (Option.some.inj h))
    | _ => cases h
  | int a =>
    cases b with
    | int b =>
      exact congrArg int (Int64.toInt_inj.1 (LawfulEqCmp.eq_of_compare (Option.some.inj h)))
    | float x => exact absurd rfl (hb x)
    | _ => cases h

/-- Beside doubles, values that have an order with the same one have an order with each other. -/
theorem compare?_ne_none_trans (ha : ∀ x, a ≠ .float x) (hb : ∀ x, b ≠ .float x)
    (hc : ∀ x, c ≠ .float x) (hab : a.compare? b ≠ none) (hbc : b.compare? c ≠ none) :
    a.compare? c ≠ none := by
  cases b with
  | null => exact absurd rfl hbc
  | list _ => exact absurd rfl hbc
  | float x => exact absurd rfl (hb x)
  | bool b =>
    cases a with
    | bool a =>
      cases c with
      | bool c => exact Option.some_ne_none _
      | _ => exact absurd rfl hbc
    | _ => exact absurd rfl hab
  | string b =>
    cases a with
    | string a =>
      cases c with
      | string c => exact Option.some_ne_none _
      | _ => exact absurd rfl hbc
    | _ => exact absurd rfl hab
  | int b =>
    cases a with
    | int a =>
      cases c with
      | int c => exact Option.some_ne_none _
      | float x => exact absurd rfl (hc x)
      | _ => exact absurd rfl hbc
    | float x => exact absurd rfl (ha x)
    | _ => exact absurd rfl hab

end Operand

/-! ## Clashes -/

open Sorting

variable {rows : List Record} {field : String}

theorem compareColumn_lt_trans {a b c : Record} (hab : compareColumn field a b = .lt)
    (hbc : compareColumn field b c = .lt) : compareColumn field a c = .lt :=
  Operand.compareNullsFirst_lt_trans hab hbc

/-- A row ties with two others, of which one is less than the other. -/
def Clashes (rows : List Record) (field : String) : Prop :=
  ∃ a ∈ rows, ∃ b ∈ rows, ∃ c ∈ rows,
    compareColumn field a b = .lt ∧ compareColumn field a c = .eq ∧ compareColumn field b c = .eq

instance : Decidable (Clashes rows field) :=
  inferInstanceAs (Decidable (∃ a ∈ rows, ∃ b ∈ rows, ∃ c ∈ rows, _ ∧ _ ∧ _))

theorem transitiveOn_of_not_clashes (h : ¬ Clashes rows field) :
    TransitiveOn (compareColumn field) rows := by
  intro a ha b hb c hc hab hbc
  rw [Ordering.isLE_iff_ne_gt]
  intro hac
  have hca : compareColumn field c a = .lt := OrientedCmp.lt_of_gt hac
  -- were one step strict, the strict ones would go round and turn the other step around
  rcases Ordering.isLE_iff_eq_lt_or_eq_eq.1 hab with hab | hab
  · rw [OrientedCmp.gt_of_lt (compareColumn_lt_trans hca hab)] at hbc
    cases hbc
  · rcases Ordering.isLE_iff_eq_lt_or_eq_eq.1 hbc with hbc | hbc
    · rw [OrientedCmp.gt_of_lt (compareColumn_lt_trans hbc hca)] at hab
      cases hab
    · exact h ⟨c, hc, a, ha, b, hb, hca, OrientedCmp.eq_symm hbc, hab⟩

theorem not_clashes_of_preordersOn (h : PreordersOn (compareColumn field) rows) :
    ¬ Clashes rows field := by
  rintro ⟨a, ha, b, hb, c, hc, hlt, hac, hbc⟩
  have hab := h.eq_trans a ha c hc b hb hac (OrientedCmp.eq_symm hbc)
  rw [hlt] at hab
  cases hab

namespace SortKey

theorem compare_lt_trans (key : SortKey) {a b c : Record} (hab : key.compare a b = .lt)
    (hbc : key.compare b c = .lt) : key.compare a c = .lt := by
  unfold compare at *
  cases hdirection : key.direction with
  | ascending =>
    simp only [hdirection] at *
    exact Operand.compareNullsFirst_lt_trans hab hbc
  | descending =>
    simp only [hdirection, ← Operand.compareNullsFirst_swap] at *
    exact Operand.compareNullsFirst_lt_trans hbc hab

theorem compareAll_ascending (field : String) :
    compareAll [ascending field] = compareColumn field := by
  funext a b
  exact Ordering.then_eq

/-- Sort keys on these fields, in any number and direction, are total preorders of the rows. -/
theorem preordersOn_compareAll_iff {fields : List String} :
    (∀ keys, (∀ key ∈ keys, key.field ∈ fields) → PreordersOn (compareAll keys) rows) ↔
      ∀ field ∈ fields, ¬ Clashes rows field := by
  constructor
  · intro h field hfield
    apply not_clashes_of_preordersOn
    rw [← compareAll_ascending]
    apply h
    intro key hkey
    rw [List.mem_singleton.1 hkey]
    exact hfield
  · intro h keys hkeys
    apply preordersOn_of_transitiveOn
    apply transitiveOn_compareAll
    exact fun key hkey => transitiveOn_of_not_clashes (h key.field (hkeys key hkey))

end SortKey

/-! ## Mixed types -/

/-- A row holds a value that has no order with the lesser of two others. -/
def Mixes (rows : List Record) (field : String) : Prop :=
  ∃ a ∈ rows, ∃ b ∈ rows, ∃ c ∈ rows,
    (a.value field).compare? (b.value field) = some .lt ∧ (c.value field).isNull = false ∧
      (a.value field).compare? (c.value field) = none

theorem Mixes.of_clashes (hdoubles : ∀ row ∈ rows, ∀ x, row.value field ≠ .float x)
    (h : Clashes rows field) : Mixes rows field := by
  obtain ⟨a, ha, b, hb, c, hc, hab, hac, hbc⟩ := h
  unfold compareColumn at hab hac hbc
  have hnull : ∀ {x y : Operand}, x.compareNullsFirst y = .eq → x.isNull = y.isNull := by
    intro x y hxy
    cases hx : x.isNull <;> cases hy : y.isNull <;>
      simp only [Operand.compareNullsFirst, hx, hy, reduceCtorEq] at hxy ⊢
  rcases Operand.compareNullsFirst_eq_lt.1 hab with ⟨hanull, hbnull⟩ | hlt
  · rw [hnull hac, ← hnull hbc, hbnull] at hanull
    cases hanull
  · have hcnull : (c.value field).isNull = false := by
      rw [← hnull hac]
      exact (Operand.isNull_of_compare? hlt).1
    refine ⟨a, ha, b, hb, c, hc, hlt, hcnull, ?_⟩
    cases horder : (a.value field).compare? (c.value field) with
    | none => rfl
    | some order =>
      -- a tie of values in order would be an equality, and the greater one would not tie
      rw [Operand.compareNullsFirst_of_compare? horder] at hac
      subst hac
      rw [← Operand.eq_of_compare?_eq (hdoubles a ha) (hdoubles c hc) horder,
        Operand.compareNullsFirst_swap, hab] at hbc
      cases hbc

theorem Mixes.clashes (hdoubles : ∀ row ∈ rows, ∀ x, row.value field ≠ .float x)
    (h : Mixes rows field) : Clashes rows field := by
  obtain ⟨a, ha, b, hb, c, hc, hlt, hcnull, hnone⟩ := h
  obtain ⟨hanull, hbnull⟩ := Operand.isNull_of_compare? hlt
  have hbc : (b.value field).compare? (c.value field) = none := by
    apply Classical.byContradiction
    intro hsome
    refine Operand.compare?_ne_none_trans (hdoubles a ha) (hdoubles b hb) (hdoubles c hc) ?_ hsome
      hnone
    rw [hlt]
    exact Option.some_ne_none _
  refine ⟨a, ha, b, hb, c, hc, Operand.compareNullsFirst_of_compare? hlt, ?_, ?_⟩
  · rw [compareColumn, Operand.compareNullsFirst_of_not_null hanull hcnull, hnone]
    rfl
  · rw [compareColumn, Operand.compareNullsFirst_of_not_null hbnull hcnull, hbc]
    rfl

/-! ## Total preorders -/

/-- Each record ties with itself, two compare either way alike, and one key never turns its strict
order around. The other laws hold for sort keys on these fields if the rows have no clash in them,
and only then. Without doubles a clash is a value without an order to the lesser of two others. -/
theorem SortKey.compareAll_preorders (rows : List Record) (fields : List String) :
    (∀ keys a, compareAll keys a a = .eq) ∧
    (∀ keys a b, compareAll keys b a = (compareAll keys a b).swap) ∧
    (∀ key : SortKey, ∀ a b c, key.compare a b = .lt → key.compare b c = .lt →
      key.compare a c = .lt) ∧
    ((∀ keys, (∀ key ∈ keys, key.field ∈ fields) → PreordersOn (compareAll keys) rows) ↔
      ∀ field ∈ fields, ¬ Clashes rows field) ∧
    ∀ field, (∀ row ∈ rows, ∀ x, row.value field ≠ .float x) →
      (Clashes rows field ↔ Mixes rows field) :=
  ⟨fun _ _ => ReflCmp.compare_self, fun _ _ _ => OrientedCmp.eq_swap,
    fun key _ _ _ => key.compare_lt_trans, preordersOn_compareAll_iff,
    fun _ hdoubles => ⟨.of_clashes hdoubles, Mixes.clashes hdoubles⟩⟩

namespace Shop

open SortKey

/-- A customer whose rank is a name. -/
def named (id : Int64) (name : String) : Record := (customer id 0).set "rank" (.string name)

/-- Customers with two ranks that are numbers and one that is a name. -/
def mixedRanks : List Record := [customer 1 1, named 2 "a", customer 3 2]

/-- Customers with ranks that are numbers, and one without a rank. -/
def plainRanks : List Record := [customer 1 5, record [("id", 2)], customer 3 7, customer 4 5]

theorem preordersOn_ranks :
    (⟨"rank", .descending, none⟩ : SortKey).compare (customer 1 7) (record [("id", 2)]) = .lt ∧
    PreordersOn (compareAll [⟨"rank", .descending, none⟩, ascending "id"]) plainRanks ∧
    Mixes mixedRanks "rank" := by
  obtain ⟨-, -, hlt, hpreorders, -⟩ := compareAll_preorders plainRanks ["rank", "id"]
  obtain ⟨-, -, -, -, hmixes⟩ := compareAll_preorders mixedRanks ["rank"]
  refine ⟨hlt _ _ (customer 3 5) _ rfl rfl, hpreorders.2 (by decide) _ (by decide), ?_⟩
  refine (hmixes "rank" ?_).1 (by decide)
  simp only [mixedRanks, List.forall_mem_cons]
  exact ⟨fun _ => nofun, fun _ => nofun, fun _ => nofun, nofun⟩

/-- The rank that is a name ties with both numbers, which do not tie with each other. -/
theorem not_forall_preordersOn :
    ¬ ∀ keys a b c, PreordersOn (compareAll keys) [a, b, c] := by
  intro h
  have htrans := (h [ascending "rank"] (customer 1 1) (named 2 "a")
    (customer 3 2)).eq_trans
  have hlt := htrans (customer 1 1) (by simp) (named 2 "a") (by simp) (customer 3 2) (by simp)
    rfl rfl
  cases hlt

end Shop

end FederatedJoin
