-- SUMMARY: Computations that look up lists at bare numbers, and rules by which they stay within them.
import FederatedJoin.Failure
import Mathlib.Data.List.FinRange
import Mathlib.Data.List.OfFn

/-!
# Unguarded lookups

A place of type `Fin` cannot lie beyond the end of its list, but a bare number can. An
unguarded computation looks lists up at bare numbers: it is `none` where it looks
beyond an end, and that is neither a result nor a failure. It follows a computation on
places when it comes to the same result or failure, and so to no end of a list.
There is one rule for each way in which such a computation is built.
-/

namespace FederatedJoin

/-- A computation that is `none` once it looks beyond the end of a list. -/
abbrev Unguarded (α : Type) : Type := ExceptT Failure Option α

namespace Unguarded

variable {α β γ δ : Type}

def ofResult (x : Except Failure α) : Unguarded α := ExceptT.mk (some x)

def read (items : List α) (place : Nat) : Unguarded α := ExceptT.mk (items[place]?.map .ok)

/-- Changes the item at a place. -/
def update (f : α → α) (items : List α) (place : Nat) : Unguarded (List α) := do
  let item ← read items place
  return items.set place (f item)

/-- The items from `start` up to `stop`. -/
def slice (items : List α) (start stop : Nat) : Unguarded (List α) :=
  ExceptT.mk (if start ≤ stop ∧ stop ≤ items.length then
    some (.ok ((items.drop start).take (stop - start))) else none)

/-- The places that pass the test. -/
def keep (test : Nat → Unguarded Bool) : List Nat → Unguarded (List Nat)
  | [] => return []
  | place :: rest => do
    let kept ← test place
    let more ← keep test rest
    return if kept then place :: more else more

/-! ## Lookups within a list -/

theorem read_eq_pure {items : List α} {place : Nat} {item : α} (h : items[place]? = some item) :
    read items place = pure item := by
  unfold read
  rw [h]
  rfl

theorem slice_eq_pure {items : List α} {start stop : Nat} (hstart : start ≤ stop)
    (hstop : stop ≤ items.length) :
    slice items start stop = pure ((items.drop start).take (stop - start)) := by
  unfold slice
  rw [if_pos ⟨hstart, hstop⟩]
  rfl

theorem slice_append (front middle back : List α) :
    slice (front ++ middle ++ back) front.length (front ++ middle).length = pure middle := by
  have hmiddle : ((front ++ middle ++ back).drop front.length).take
      ((front ++ middle).length - front.length) = middle := by
    rw [List.append_assoc, List.drop_left, List.length_append, Nat.add_sub_cancel_left,
      List.take_left]
  rw [slice_eq_pure (by simp) (by simp), hmiddle]

section Lookups

variable {n : Nat} (items : Fin n → α) (id : Fin n)

theorem read_ofFn : read (List.ofFn items) id.val = pure (items id) :=
  read_eq_pure (by rw [List.getElem?_ofFn, dif_pos id.isLt])

theorem read_get (items : List α) (id : Fin items.length) :
    read items id.val = pure (items.get id) := read_eq_pure (List.getElem?_eq_getElem id.isLt)

theorem update_ofFn (f : α → α) : update f (List.ofFn items) id.val =
    pure (List.ofFn fun other => if id = other then f (items other) else items other) := by
  have hset : (List.ofFn items).set id.val (f (items id)) =
      List.ofFn fun other => if id = other then f (items other) else items other := by
    apply List.ext_getElem
    · simp
    · intro place _ hplace
      rw [List.length_ofFn] at hplace
      rw [List.getElem_set, List.getElem_ofFn, List.getElem_ofFn]
      by_cases hid : id = ⟨place, hplace⟩
      · rw [if_pos hid, if_pos (congrArg Fin.val hid)]
        exact congrArg (fun other => f (items other)) hid
      · rw [if_neg hid, if_neg fun h => hid (Fin.ext h)]
  rw [update, read_ofFn, pure_bind, hset]

theorem keep_map_val {test : Nat → Unguarded Bool} {p : Fin n → Bool}
    (h : ∀ id : Fin n, test id.val = pure (p id)) (ids : List (Fin n)) :
    keep test (ids.map Fin.val) = pure ((ids.filter p).map Fin.val) := by
  induction ids with
  | nil => rfl
  | cons id rest ih =>
    rw [List.map_cons, keep, h, pure_bind, ih, pure_bind, List.filter_cons]
    split <;> rfl

/-- The places of a list are its ids. -/
theorem keep_range {test : Nat → Unguarded Bool} {p : Fin n → Bool}
    (h : ∀ id : Fin n, test id.val = pure (p id)) :
    keep test (List.range n) = pure (((List.finRange n).filter p).map Fin.val) := by
  rw [← List.map_coe_finRange_eq_range, keep_map_val h]

end Lookups

/-! ## Loops -/

/-- A loop whose steps stay within all lists does so as a whole. -/
theorem foldlM_eq_pure {step : γ → β → Unguarded γ} {g : α → γ} {next : α → β → α}
    (h : ∀ state item, step (g state) item = pure (g (next state item))) (items : List β)
    (state : α) : items.foldlM step (g state) = pure (g (items.foldl next state)) := by
  induction items generalizing state with
  | nil => rfl
  | cons item rest ih => rw [List.foldlM_cons, h, pure_bind, ih, List.foldl_cons]

/-- The state of the loop tells the items that it has seen. -/
theorem foldlM_eq_pure_of_concat {step : γ → β → Unguarded γ} (g : List β → γ)
    (h : ∀ front item, step (g front) item = pure (g (front ++ [item]))) (items : List β) :
    items.foldlM step (g []) = pure (g items) := by
  have hrest (items front : List β) :
      items.foldlM step (g front) = pure (g (front ++ items)) := by
    induction items generalizing front with
    | nil => rw [List.append_nil]; rfl
    | cons item rest ih => rw [List.foldlM_cons, h, pure_bind, ih, List.append_assoc]; rfl
  exact hrest items []

/-! ## Computations that can fail -/

/-- The computation comes to the same failure, or to what `g` makes of the result. -/
def Follows (g : α → β) (x : Unguarded β) (y : Except Failure α) : Prop := x = ofResult (y.map g)

variable {g : α → β} {g' : γ → δ}

theorem follows_pure (a : α) : Follows g (pure (g a)) (.ok a) := rfl

theorem follows_throw (e : Failure) : Follows g (throw e) (.error e) := rfl

theorem follows_ofResult (y : Except Failure α) : Follows id (ofResult y) y := by
  cases y <;> rfl

theorem Follows.eq_pure {x : Unguarded β} {y : Except Failure α} {a : α} (h : Follows g x y)
    (hy : y = .ok a) : x = pure (g a) := by
  unfold Follows at h
  rw [h, hy]
  rfl

theorem Follows.bind {x : Unguarded β} {y : Except Failure α} {f : β → Unguarded δ}
    {k : α → Except Failure γ} (hx : Follows g x y) (hf : ∀ a, Follows g' (f (g a)) (k a)) :
    Follows g' (x >>= f) (y >>= k) := by
  unfold Follows at hx
  rw [hx]
  cases y with
  | error e => rfl
  | ok a => exact hf a

theorem Follows.map {x : Unguarded β} {y : Except Failure α} {f : β → δ} {k : α → γ}
    (hx : Follows g x y) (hf : ∀ a, f (g a) = g' (k a)) :
    Follows g' (f <$> x) (y.map k) := by
  unfold Follows at hx ⊢
  rw [hx]
  cases y with
  | error e => rfl
  | ok a => exact congrArg (fun d => ofResult (.ok d)) (hf a)

end Unguarded

end FederatedJoin
