-- SUMMARY: Arithmetic on 64-bit words that stops at the greatest word, or gives no word beyond it.

/-!
# Words
-/

namespace FederatedJoin.Word

def greatest : UInt64 := 18446744073709551615

/-- The word for a number, or the greatest word when there is none. -/
def clamp (n : Nat) : UInt64 := UInt64.ofNat (min n 18446744073709551615)

def addSat (a b : UInt64) : UInt64 := clamp (a.toNat + b.toNat)

def mulSat (a b : UInt64) : UInt64 := clamp (a.toNat * b.toNat)

/-- One less, but never below zero. -/
def pred (a : UInt64) : UInt64 := if a = 0 then 0 else a - 1

/-- One more, unless that is beyond the words. -/
def succ? (a : UInt64) : Option UInt64 := if a = greatest then none else some (a + 1)

@[simp] theorem toNat_clamp (n : Nat) : (clamp n).toNat = min n 18446744073709551615 := by
  rw [clamp, UInt64.toNat_ofNat']
  omega

@[simp] theorem toNat_addSat (a b : UInt64) :
    (addSat a b).toNat = min (a.toNat + b.toNat) 18446744073709551615 := toNat_clamp _

@[simp] theorem toNat_mulSat (a b : UInt64) :
    (mulSat a b).toNat = min (a.toNat * b.toNat) 18446744073709551615 := toNat_clamp _

@[simp] theorem toNat_min (a b : UInt64) : (min a b).toNat = min a.toNat b.toNat := by
  show (if a ≤ b then a else b).toNat = _
  split
  · next h => exact (Nat.min_eq_left (UInt64.le_iff_toNat_le.1 h)).symm
  · next h => exact (Nat.min_eq_right (Nat.le_of_not_le (mt UInt64.le_iff_toNat_le.2 h))).symm

@[simp] theorem toNat_max (a b : UInt64) : (max a b).toNat = max a.toNat b.toNat := by
  show (if a ≤ b then b else a).toNat = _
  split
  · next h => exact (Nat.max_eq_right (UInt64.le_iff_toNat_le.1 h)).symm
  · next h => exact (Nat.max_eq_left (Nat.le_of_not_le (mt UInt64.le_iff_toNat_le.2 h))).symm

@[simp] theorem toNat_pred (a : UInt64) : (pred a).toNat = a.toNat - 1 := by
  unfold pred
  split
  · next h => simp [h]
  · next h =>
    have : 1 ≤ a := by
      rw [UInt64.le_iff_toNat_le]
      have : a.toNat ≠ 0 := fun h' => h (UInt64.toNat_inj.1 (by simpa using h'))
      simp; omega
    rw [UInt64.toNat_sub_of_le _ _ this]
    simp

theorem eq_add_one_of_succ? {a b : UInt64} (h : succ? a = some b) : b = a + 1 := by
  unfold succ? at h
  split at h
  · cases h
  · exact (Option.some.inj h).symm

theorem succ?_eq_none_iff {a : UInt64} : succ? a = none ↔ a = greatest := by
  unfold succ?
  split <;> simp_all

end FederatedJoin.Word
