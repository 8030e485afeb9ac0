-- SUMMARY: Cursors that hand out consecutive windows of a collection.
import FederatedJoin.Page

/-!
# Cursors

A cursor reads a collection in windows of one size, from the start, until the
next window would start at the greatest offset allowed or beyond it.
-/

namespace FederatedJoin

structure Window where
  limit : UInt64
  offset : UInt64
  deriving DecidableEq

structure Cursor where
  size : UInt64
  offset : UInt64
  maxOffset : UInt64
  deriving DecidableEq

namespace Cursor

/-- A window size of zero counts as one. -/
def start (limit maxOffset : UInt64) : Cursor := ⟨Page.atLeastOne limit, 0, maxOffset⟩

def window (c : Cursor) : Window := ⟨c.size, c.offset⟩

def advance (c : Cursor) : Cursor := { c with offset := Word.addSat c.offset c.size }

def reachedLimit (c : Cursor) : Bool := c.maxOffset ≤ c.offset

/-- How many windows are left before the limit is reached. -/
def windowsLeft (c : Cursor) : Nat :=
  (c.maxOffset.toNat - c.offset.toNat + (c.size.toNat - 1)) / c.size.toNat

theorem size_start_ne_zero (limit maxOffset : UInt64) : (start limit maxOffset).size.toNat ≠ 0 := by
  simp only [start, Page.atLeastOne]
  split
  · simp
  · next h => exact fun h' => h (UInt64.toNat_inj.1 (by simpa using h'))

theorem windowsLeft_eq_zero_iff {c : Cursor} (h : c.size.toNat ≠ 0) :
    c.windowsLeft = 0 ↔ c.reachedLimit = true := by
  simp only [windowsLeft, reachedLimit, decide_eq_true_eq, UInt64.le_iff_toNat_le,
    Nat.div_eq_zero_iff]
  omega

theorem windowsLeft_advance {c : Cursor} (h : c.size.toNat ≠ 0) :
    c.advance.windowsLeft = c.windowsLeft - 1 := by
  have hm := c.maxOffset.toNat_lt
  simp only [windowsLeft, advance, Word.toNat_addSat]
  generalize c.size.toNat = s at h ⊢
  generalize c.maxOffset.toNat = m at hm ⊢
  generalize c.offset.toNat = o
  have hle : m - min (o + s) 18446744073709551615 = m - o - s := by omega
  rw [hle]
  by_cases hs : s ≤ m - o
  · rw [show m - o + (s - 1) = m - o - s + (s - 1) + s by omega, Nat.add_div_right _ (by omega)]
    rfl
  · rw [show m - o - s + (s - 1) = s - 1 by omega, Nat.div_eq_of_lt (by omega)]
    have : (m - o + (s - 1)) / s ≤ 1 := by
      rw [← Nat.lt_succ_iff, Nat.div_lt_iff_lt_mul (by omega)]
      omega
    omega

end Cursor

end FederatedJoin
