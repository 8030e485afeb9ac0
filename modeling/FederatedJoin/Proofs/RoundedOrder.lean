-- SUMMARY: Rounding keeps the order: of two integers the greater has no lesser double.
import FederatedJoin.Double.Rounding
import Mathlib.Data.Nat.Log

/-!
# Rounding in order

Rounding may make different numbers equal, but never turns their order around.
Inside one binade this is the order of the rounded quotients; between two, the
lower one ends where the next begins.
-/

namespace FederatedJoin.Double

/-! ## Quotients -/

theorem divNearest_eq (num den : Nat) : divNearest num den =
    if 2 * (num % den) < den then num / den
    else if 2 * (num % den) = den then num / den + num / den % 2
    else num / den + 1 := by
  simp only [divNearest]
  rcases Nat.lt_trichotomy (2 * (num % den)) den with hlt | heq | hgt
  · rw [Nat.compare_eq_lt.2 hlt, if_pos hlt]
  · rw [Nat.compare_eq_eq.2 heq, if_neg (by omega), if_pos heq]
  · rw [Nat.compare_eq_gt.2 hgt, if_neg (by omega), if_neg (by omega)]

theorem divNearest_mono {m n : Nat} (h : m ≤ n) (den : Nat) :
    divNearest m den ≤ divNearest n den := by
  have hfloor := Nat.div_le_div_right (c := den) h
  -- with one floor the remainders are in order, and they decide
  have hmod : m / den = n / den → m % den ≤ n % den := by
    intro heq
    have hm := Nat.div_add_mod m den
    have hn := Nat.div_add_mod n den
    rw [heq] at hm
    omega
  rw [divNearest_eq, divNearest_eq]
  split_ifs <;> omega

theorem divNearest_le_of_lt_mul {num den bound : Nat} (h : num < den * bound) :
    divNearest num den ≤ bound := by
  have hfloor := Nat.div_lt_of_lt_mul h
  rw [divNearest_eq]
  split_ifs <;> omega

theorem le_divNearest_of_mul_le {num den bound : Nat} (hden : 0 < den)
    (h : bound * den ≤ num) : bound ≤ divNearest num den := by
  have hfloor := (Nat.le_div_iff_mul_le hden).2 h
  rw [divNearest_eq]
  split_ifs <;> omega

/-! ## Words -/

/-- The binades between the significands and a whole number. -/
def binadesBelow (n : Nat) : Nat := n.log2 - 52

theorem nearest_one (n : Nat) : nearest n 1 =
    min (binadesBelow n * binade + divNearest n (Nat.pow 2 (binadesBelow n))) infinity := by
  simp only [nearest, binadesBelow, Nat.div_one, Nat.one_mul]

theorem binadesBelow_mono {m n : Nat} (h : m ≤ n) : binadesBelow m ≤ binadesBelow n := by
  simp only [binadesBelow, Nat.log2_eq_log_two]
  exact Nat.sub_le_sub_right (Nat.log_mono_right h) 52

theorem divNearest_le_of_binade (n : Nat) :
    divNearest n (Nat.pow 2 (binadesBelow n)) ≤ 2 * binade := by
  apply divNearest_le_of_lt_mul
  have hbinade : 2 * binade = 2 ^ 53 := rfl
  rw [Nat.pow_eq, hbinade, ← Nat.pow_add]
  apply Nat.lt_of_lt_of_le Nat.lt_log2_self
  apply Nat.pow_le_pow_right Nat.zero_lt_two
  simp only [binadesBelow]
  omega

theorem binade_le_divNearest {n : Nat} (h : binadesBelow n ≠ 0) :
    binade ≤ divNearest n (Nat.pow 2 (binadesBelow n)) := by
  have hn : n ≠ 0 := by
    rintro rfl
    exact h rfl
  apply le_divNearest_of_mul_le (Nat.pow_pos Nat.zero_lt_two)
  have hbinade : binade = 2 ^ 52 := rfl
  rw [hbinade, ← Nat.pow_add]
  apply Nat.le_trans _ (Nat.log2_self_le hn)
  apply Nat.pow_le_pow_right Nat.zero_lt_two
  simp only [binadesBelow] at *
  omega

theorem nearest_mono {m n : Nat} (h : m ≤ n) : nearest m 1 ≤ nearest n 1 := by
  rw [nearest_one, nearest_one]
  apply Nat.le_min_of_le_of_le (Nat.le_trans (Nat.min_le_left ..) _) (Nat.min_le_right ..)
  rcases Nat.eq_or_lt_of_le (binadesBelow_mono h) with heq | hlt
  · rw [heq]
    exact Nat.add_le_add_left (divNearest_mono h _) _
  · have hlow := divNearest_le_of_binade m
    have hhigh := binade_le_divNearest (Nat.ne_of_gt (Nat.zero_lt_of_lt hlt))
    have hnext := Nat.mul_le_mul_right binade (Nat.succ_le_of_lt hlt)
    rw [Nat.succ_mul] at hnext
    omega

/-! ## Integers -/

theorem ofNat_le_infinity (n : Nat) : ofNat n ≤ infinity := Nat.min_le_right ..

theorem ofNat_mono {m n : Nat} (h : m ≤ n) : ofNat m ≤ ofNat n :=
  nearest_mono (Nat.mul_le_mul_right _ h)

theorem magnitude_ofMagnitude (negative : Bool) {word : Nat} (h : word ≤ infinity) :
    (ofMagnitude negative word).magnitude = word := by
  have hinfinity : infinity < 9223372036854775808 := by decide
  simp only [magnitude, ofMagnitude, UInt64.toNat_ofNat', signBit]
  split <;> omega

theorem isNegative_ofMagnitude (negative : Bool) {word : Nat} (h : word ≤ infinity) :
    (ofMagnitude negative word).isNegative = negative := by
  have hinfinity : infinity < 9223372036854775808 := by decide
  simp only [isNegative, ofMagnitude, UInt64.toNat_ofNat', signBit]
  cases negative with
  | true =>
    rw [if_pos rfl, decide_eq_true_eq]
    omega
  | false =>
    rw [if_neg Bool.false_ne_true, decide_eq_false_iff_not]
    omega

theorem isNaN_ofInt (n : Int) : (ofInt n).isNaN = false := by
  have hword := ofNat_le_infinity n.natAbs
  simp only [isNaN, ofInt, magnitude_ofMagnitude _ hword, decide_eq_false_iff_not]
  omega

theorem rank_ofInt (n : Int) :
    (ofInt n).rank = if n < 0 then -(ofNat n.natAbs : Int) else ofNat n.natAbs := by
  have hword := ofNat_le_infinity n.natAbs
  simp only [rank, ofInt, isNegative_ofMagnitude _ hword, magnitude_ofMagnitude _ hword,
    decide_eq_true_eq]

/-- Of two integers the greater has no lesser double. -/
theorem rank_ofInt_mono {m n : Int} (h : m ≤ n) : (ofInt m).rank ≤ (ofInt n).rank := by
  rw [rank_ofInt, rank_ofInt]
  split <;> split
  · have hle : ofNat n.natAbs ≤ ofNat m.natAbs := ofNat_mono (by omega)
    omega
  · omega
  · omega
  · have hle : ofNat m.natAbs ≤ ofNat n.natAbs := ofNat_mono (by omega)
    omega

end FederatedJoin.Double
