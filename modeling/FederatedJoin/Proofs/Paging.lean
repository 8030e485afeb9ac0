-- SUMMARY: Windows of lists, and pages that follow one another.
import Mathlib.Data.List.Basic

/-!
# Paging

A page is a window of a list, and may be cut out of a part of it: as long as the
part reaches to the end of the window, nothing is missed. Pages that follow one
another then make up the list from its start.
-/

namespace FederatedJoin.Paging

/-! ## Windows -/

/-- A window is the same in two lists that agree up to its end. -/
theorem window_eq_of_isPrefix {α : Type} {xs ys : List α} (h : xs <+: ys) {start size : Nat}
    (hlength : min (start + size) ys.length ≤ xs.length) :
    (xs.drop start).take size = (ys.drop start).take size := by
  obtain ⟨more, rfl⟩ := h
  rw [List.length_append] at hlength
  simp only [List.take_drop]
  congr 1
  rcases Nat.lt_or_ge 0 more.length with hpos | hnone
  · rw [List.take_append_of_le_length (by omega)]
  · simp only [List.eq_nil_of_length_eq_zero (Nat.le_zero.1 hnone), List.append_nil]

/-! ## Pages cut out of growing prefixes -/

variable {α : Type} {order : List α} {seen : Nat → List α} {size n : Nat}

/-- The first `n` pages one after the other, when the page `p` is cut out of `seen p`. -/
def pages (seen : Nat → List α) (size n : Nat) : List α :=
  (List.range n).flatMap fun p => ((seen (p + 1)).drop (p * size)).take size

theorem pages_succ (seen : Nat → List α) (size n : Nat) : pages seen size (n + 1) =
    pages seen size n ++ ((seen (n + 1)).drop (n * size)).take size := by
  rw [pages, List.range_succ, List.flatMap_append, List.flatMap_singleton]
  rfl

/-- Pages that see far enough show the whole list, up to where they end. -/
theorem pages_eq_take (hseen : ∀ p, seen p <+: order)
    (hfull : ∀ p < n, min ((p + 1) * size) order.length ≤ (seen (p + 1)).length) :
    pages seen size n = order.take (n * size) := by
  induction n with
  | zero => simp [pages]
  | succ n ih =>
    have hpage : ((seen (n + 1)).drop (n * size)).take size =
        (order.drop (n * size)).take size := by
      apply window_eq_of_isPrefix (hseen (n + 1))
      rw [← Nat.succ_mul]
      exact hfull n (Nat.lt_succ_self n)
    rw [pages_succ, hpage, ih fun p hp => hfull p (Nat.lt_succ_of_lt hp), Nat.succ_mul,
      List.take_add]

theorem length_pages_le (size n : Nat) (hseen : ∀ p, seen p <+: order) :
    (pages seen size n).length ≤ min (n * size) order.length := by
  induction n with
  | zero => simp [pages]
  | succ n ih =>
    have hlength := (hseen (n + 1)).length_le
    simp only [pages_succ, List.length_append, List.length_take, List.length_drop, Nat.succ_mul]
    omega

/-- Pages that together are long enough have each seen far enough. -/
theorem full_of_length_pages (hsize : size ≠ 0) (hseen : ∀ p, seen p <+: order)
    (hn : ∀ p < n, p * size < order.length)
    (h : (pages seen size n).length = min (n * size) order.length) :
    ∀ p < n, min ((p + 1) * size) order.length ≤ (seen (p + 1)).length := by
  induction n with
  | zero => exact fun p hp => absurd hp (Nat.not_lt_zero p)
  | succ n ih =>
    have hle := length_pages_le size n hseen
    have hstart := hn n (Nat.lt_succ_self n)
    have hlength := (hseen (n + 1)).length_le
    rw [pages_succ, List.length_append, List.length_take, List.length_drop, Nat.succ_mul] at h
    intro p hp
    rcases Nat.eq_or_lt_of_le (Nat.le_of_lt_succ hp) with rfl | hp
    · rw [Nat.succ_mul]
      omega
    · exact ih (fun q hq => hn q (Nat.lt_succ_of_lt hq)) (by omega) p hp

/-- Pages of one list, put together. -/
theorem pages_const (xs : List α) (size n : Nat) :
    pages (fun _ => xs) size n = xs.take (n * size) :=
  pages_eq_take (fun _ => List.prefix_refl xs) fun _ _ => Nat.min_le_right ..

end FederatedJoin.Paging
