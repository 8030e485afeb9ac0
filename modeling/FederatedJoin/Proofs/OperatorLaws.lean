-- SUMMARY: The operators of conditions are consistent with each other, on null fields as well.
import FederatedJoin.Proofs.Answers

/-!
# Laws of operators

Each operator is decided on its own, by equality, by an order that not all
operands have, or by a search in a text, and a null field is decided before any
of them. They fit together all the same. A negated operator holds exactly when
the other does not, a list or a range asks for nothing but its items, and the
comparisons never contradict each other. Only between operands that have an
order is one of "less", "equal" and "greater" sure to hold.
-/

namespace FederatedJoin

namespace Operand

/-- Both are booleans, both integers or both strings. -/
inductive Alike : Operand → Operand → Prop where
  | bools (a b : Bool) : Alike (.bool a) (.bool b)
  | ints (a b : Int64) : Alike (.int a) (.int b)
  | strings (a b : String) : Alike (.string a) (.string b)

theorem Alike.exists_compare? {a b : Operand} (h : a.Alike b) :
    ∃ order, a.compare? b = some order := by
  cases h <;> exact ⟨_, rfl⟩

/-- Operands that have an order are equal exactly when they tie, integers and doubles mixed. -/
theorem equals_iff_of_compare? {a b : Operand} {order : Ordering}
    (h : a.compare? b = some order) : a.equals b = true ↔ order = .eq := by
  have hdoubles {x y : Double} (hxy : x.compare? y = some order) :
      x.same y = true ↔ order = .eq := by
    simp only [Double.same, hxy, beq_iff_eq, Option.some.injEq]
  cases a with
  | null => cases h
  | list _ => cases h
  | bool a =>
    cases b with
    | bool b =>
      cases h
      exact beq_iff_eq.trans Std.compare_eq_iff_eq.symm
    | _ => cases h
  | string a =>
    cases b with
    | string b =>
      cases h
      exact beq_iff_eq.trans Std.compare_eq_iff_eq.symm
    | _ => cases h
  | int a =>
    cases b with
    | int b =>
      cases h
      rw [Std.compare_eq_iff_eq, Int64.toInt_inj]
      exact beq_iff_eq
    | float b => exact hdoubles h
    | _ => cases h
  | float a =>
    cases b with
    | int b => exact hdoubles h
    | float b => exact hdoubles h
    | _ => cases h

end Operand

namespace Operator

/-- How the operators fit together, if the test says which of them a field of this value passes. -/
structure Consistent (value : Operand) (test : Operator → Operand → Bool) : Prop where
  notEqual : ∀ x, test .notEqual x = !test .equal x
  notAmong : ∀ x, test .notAmong x = !test .among x
  excludes : ∀ x, test .excludes x = !test .contains x
  notNull : ∀ x y, test .notNull x = !test .isNull y
  among : ∀ xs, test .among (.list xs) = xs.any (test .equal)
  between : ∀ low high,
    test .between (.list [low, high]) = (test .greaterEqual low && test .lessEqual high)
  startsWith : ∀ x, test .startsWith x = true → test .contains x = true
  endsWith : ∀ x, test .endsWith x = true → test .contains x = true
  greater : ∀ x, test .greater x = true → test .greaterEqual x = true
  less : ∀ x, test .less x = true → test .lessEqual x = true
  apart : ∀ x, (test .greater x && test .less x) = false
  oneOfThree : ∀ x, value.Alike x →
    [Operator.less, .equal, .greater].countP (test · x) = 1
  greaterEqual : ∀ x, value.Alike x →
    test .greaterEqual x = (test .greater x || test .equal x)
  lessEqual : ∀ x, value.Alike x → test .lessEqual x = (test .less x || test .equal x)

end Operator

namespace Condition

/-! ## Texts -/

theorem occursIn_iff {part text : List Char} : occursIn part text = true ↔ part <:+: text := by
  induction text with
  | nil => rw [occursIn, List.isEmpty_iff, List.infix_nil]
  | cons c rest ih =>
    rw [occursIn, Bool.or_eq_true, List.isPrefixOf_iff_prefix, ih, List.infix_cons_iff]

theorem occursIn_of_isPrefixOf {part text : List Char} (h : part.isPrefixOf text = true) :
    occursIn part text = true := occursIn_iff.2 (List.isPrefixOf_iff_prefix.1 h).isInfix

theorem occursIn_of_isSuffixOf {part text : List Char} (h : part.isSuffixOf text = true) :
    occursIn part text = true := occursIn_iff.2 (List.isSuffixOf_iff_suffix.1 h).isInfix

theorem textTest_mono {test weaker : List Char → List Char → Bool}
    (h : ∀ part text, test part text = true → weaker part text = true) {value operand : Operand}
    (htest : textTest test value operand = true) : textTest weaker value operand = true := by
  unfold textTest at htest ⊢
  split at htest
  · exact h _ _ htest
  · cases htest

/-! ## Orders -/

theorem orderTest_of_compare? {value operand : Operand} {order : Ordering}
    (h : value.compare? operand = some order) (test : Ordering → Bool) :
    orderTest test value operand = test order := by
  rw [orderTest, h, Option.any_some]

theorem orderTest_mono {test weaker : Ordering → Bool}
    (h : ∀ order, test order = true → weaker order = true) {value operand : Operand}
    (htest : orderTest test value operand = true) : orderTest weaker value operand = true := by
  obtain ⟨order, horder, hpasses⟩ := (Option.any_eq_true ..).1 htest
  exact (Option.any_eq_true ..).2 ⟨order, horder, h order hpasses⟩

/-- No order passes tests that exclude each other. -/
theorem orderTest_apart {test other : Ordering → Bool}
    (h : ∀ order, (test order && other order) = false) (value operand : Operand) :
    (orderTest test value operand && orderTest other value operand) = false := by
  cases horder : value.compare? operand with
  | none => simp only [orderTest, horder, Option.any_none, Bool.and_false]
  | some order => rw [orderTest_of_compare? horder, orderTest_of_compare? horder, h]

/-- Of operands that have an order, the comparisons tell which one it is. -/
theorem compares_of_compare? {value operand : Operand} {order : Ordering}
    (h : value.compare? operand = some order) :
    compares .less value operand = order.isLT ∧ compares .equal value operand = order.isEq ∧
      compares .greater value operand = order.isGT ∧
        compares .lessEqual value operand = order.isLE ∧
          compares .greaterEqual value operand = order.isGE := by
  have hequal : value.equals operand = order.isEq := by
    rw [Bool.eq_iff_iff, Operand.equals_iff_of_compare? h, Ordering.isEq_iff_eq_eq]
  exact ⟨orderTest_of_compare? h _, hequal, orderTest_of_compare? h _,
    orderTest_of_compare? h _, orderTest_of_compare? h _⟩

/-! ## Values and nulls -/

theorem consistent_compares (value : Operand) :
    Operator.Consistent value fun operator x => compares operator value x where
  notEqual _ := rfl
  notAmong _ := rfl
  excludes _ := rfl
  notNull _ _ := rfl
  among _ := rfl
  between _ _ := rfl
  startsWith x := by
    show textTest List.isPrefixOf value x = true → textTest occursIn value x = true
    exact textTest_mono fun _ _ => occursIn_of_isPrefixOf
  endsWith x := by
    show textTest List.isSuffixOf value x = true → textTest occursIn value x = true
    exact textTest_mono fun _ _ => occursIn_of_isSuffixOf
  greater _ := orderTest_mono (by decide)
  less _ := orderTest_mono (by decide)
  apart x := orderTest_apart (by decide) value x
  oneOfThree x hx := by
    obtain ⟨order, horder⟩ := hx.exists_compare?
    obtain ⟨hless, hequal, hgreater, -⟩ := compares_of_compare? horder
    simp only [List.countP_cons, List.countP_nil, hless, hequal, hgreater]
    cases order <;> rfl
  greaterEqual x hx := by
    obtain ⟨order, horder⟩ := hx.exists_compare?
    obtain ⟨-, hequal, hgreater, -, hgreaterEqual⟩ := compares_of_compare? horder
    rw [hgreater, hequal, hgreaterEqual, Ordering.isGE_eq_isGT_or_isEq]
  lessEqual x hx := by
    obtain ⟨order, horder⟩ := hx.exists_compare?
    obtain ⟨hless, hequal, -, hlessEqual, -⟩ := compares_of_compare? horder
    rw [hless, hequal, hlessEqual, Ordering.isLE_eq_isLT_or_isEq]

/-- Of a null field the negated operators hold, and of those that are not negated only one. -/
theorem consistent_holdsOfNull :
    Operator.Consistent .null fun operator _ => holdsOfNull operator where
  notEqual _ := rfl
  notAmong _ := rfl
  excludes _ := rfl
  notNull _ _ := rfl
  among xs := by
    have hnone : (xs.any fun _ => holdsOfNull .equal) = false :=
      List.any_eq_false.2 fun _ _ => nofun
    exact hnone.symm
  between _ _ := rfl
  startsWith _ := nofun
  endsWith _ := nofun
  greater _ := nofun
  less _ := nofun
  apart _ := rfl
  oneOfThree _ := nofun
  greaterEqual _ := nofun
  lessEqual _ := nofun

/-- The conditions on a field are consistent, whatever it holds and whatever their tags. -/
theorem consistent_holds (row : Record) (field : String) (tag : Option String) :
    Operator.Consistent (row.value field)
      fun operator x => holds ⟨field, operator, x, tag⟩ row := by
  cases hvalue : row.value field with
  | null =>
    have htest : (fun operator x => holds ⟨field, operator, x, tag⟩ row) =
        fun operator _ => holdsOfNull operator := by
      funext operator x
      simp only [holds, hvalue, Operand.isNull, if_true]
    rw [htest]
    exact consistent_holdsOfNull
  | _ =>
    have htest : (fun operator x => holds ⟨field, operator, x, tag⟩ row) =
        fun operator x => compares operator (row.value field) x := by
      funext operator x
      simp only [holds, hvalue, Operand.isNull, Bool.false_eq_true, if_false]
    rw [htest, ← hvalue]
    exact consistent_compares _

end Condition

namespace Shop

/-- A customer's rank is one of less than, equal to or greater than 3. -/
theorem consistent_holds_rank : (customer 1 5).value "rank" = .int 5 ∧
    [Operator.less, .equal, .greater].countP
      (fun operator => Condition.holds ⟨"rank", operator, .int 3, none⟩ (customer 1 5)) = 1 := by
  have hvalue : (customer 1 5).value "rank" = .int 5 := rfl
  have hlaws := Condition.consistent_holds (customer 1 5) "rank" none
  rw [hvalue] at hlaws
  exact ⟨hvalue, hlaws.oneOfThree (.int 3) (.ints 5 3)⟩

end Shop

end FederatedJoin
