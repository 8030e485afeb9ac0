-- SUMMARY: Stable sorting of items on which the comparison is transitive, though elsewhere it need not be.

/-!
# Stable sorts

A sort is stable: the items that pass a test stand as if they alone had been
sorted. A comparison that is oriented everywhere may be transitive on the items
at hand only. There it agrees with a total preorder, and sorting by the one is
sorting by the other: the items come out in order, and those that tie as they
came in.
-/

namespace FederatedJoin.Sorting

open Std

/-! ## Sorting and filtering -/

section Relations

variable {α : Type} {le other : α → α → Bool}

theorem mergeSort_congr {xs : List α} (h : ∀ a ∈ xs, ∀ b ∈ xs, le a b = other a b) :
    xs.mergeSort le = xs.mergeSort other := by
  have hmap := List.map_mergeSort (f := id) h
  rwa [List.map_id, List.map_id] at hmap

theorem append_eq_append_of_separated {p : α → Bool} {as bs cs ds : List α}
    (h : as ++ bs = cs ++ ds) (has : ∀ a ∈ as, p a = true) (hbs : ∀ b ∈ bs, p b = false)
    (hcs : ∀ c ∈ cs, p c = true) (hds : ∀ d ∈ ds, p d = false) : as = cs ∧ bs = ds := by
  have hpart : ∀ {front back : List α}, (∀ a ∈ front, p a = true) → (∀ b ∈ back, p b = false) →
      (front ++ back).filter p = front := by
    intro front back hfront hback
    rw [List.filter_append, List.filter_eq_self.2 hfront,
      List.filter_eq_nil_iff.2 fun b hb => by rw [hback b hb]; exact Bool.false_ne_true,
      List.append_nil]
  have hfront : as = cs := by rw [← hpart has hbs, h, hpart hcs hds]
  subst hfront
  exact ⟨rfl, List.append_cancel_left h⟩

/-- Sorting first or filtering first comes to the same. -/
theorem filter_mergeSort (trans : ∀ a b c, le a b = true → le b c = true → le a c = true)
    (total : ∀ a b, (le a b || le b a) = true) (p : α → Bool) (xs : List α) :
    (xs.mergeSort le).filter p = (xs.filter p).mergeSort le := by
  induction xs with
  | nil => rw [List.mergeSort_nil, List.filter_nil, List.mergeSort_nil]
  | cons a rest ih =>
    obtain ⟨low, high, hall, hrest, hlow⟩ := List.mergeSort_cons trans total a rest
    simp only [hrest, List.filter_append] at ih
    simp only [hall, List.filter_append]
    cases ha : p a with
    | false =>
      rw [List.filter_cons_of_neg (by rw [ha]; exact Bool.false_ne_true),
        List.filter_cons_of_neg (by rw [ha]; exact Bool.false_ne_true), ih]
    | true =>
      simp only [List.filter_cons_of_pos ha]
      obtain ⟨low', high', hall', hrest', hlow'⟩ :=
        List.mergeSort_cons trans total a (rest.filter p)
      -- whatever follows the head in a sorted list is not before it
      have hhigh : ∀ b ∈ high, le a b = true := by
        have hsorted := List.pairwise_mergeSort trans total (a :: rest)
        rw [hall] at hsorted
        exact (List.pairwise_cons.1 (List.pairwise_append.1 hsorted).2.1).1
      have hhigh' : ∀ b ∈ high', le a b = true := by
        have hsorted := List.pairwise_mergeSort trans total (a :: rest.filter p)
        rw [hall'] at hsorted
        exact (List.pairwise_cons.1 (List.pairwise_append.1 hsorted).2.1).1
      rw [hrest'] at ih
      obtain ⟨hfront, hback⟩ := append_eq_append_of_separated (p := fun b => !le a b) ih
        (fun b hb => hlow b (List.mem_filter.1 hb).1)
        (fun b hb => by rw [hhigh b (List.mem_filter.1 hb).1]; rfl) hlow'
        (fun b hb => by rw [hhigh' b hb]; rfl)
      rw [hall', hfront, hback]

end Relations

/-! ## Total preorders -/

/-- Values are ordered as their images are. -/
theorem transCmp_comap {α β : Type} {cmp : β → β → Ordering} (hcmp : TransCmp cmp)
    (g : α → β) : TransCmp fun a b => cmp (g a) (g b) where
  eq_swap := OrientedCmp.eq_swap
  isLE_trans := TransCmp.isLE_trans

section Preorders

variable {α : Type} {cmp : α → α → Ordering} [TransCmp cmp]

theorem isLE_total (a b : α) : ((cmp a b).isLE || (cmp b a).isLE) = true := by
  rw [Bool.or_eq_true]
  cases h : cmp a b with
  | lt => exact .inl rfl
  | eq => exact .inl rfl
  | gt =>
    rw [OrientedCmp.lt_of_gt h]
    exact .inr rfl

theorem filter_mergeSort_isLE (p : α → Bool) (xs : List α) :
    (xs.mergeSort fun a b => (cmp a b).isLE).filter p =
      (xs.filter p).mergeSort fun a b => (cmp a b).isLE :=
  filter_mergeSort (fun _ _ _ => TransCmp.isLE_trans) isLE_total p xs

theorem pairwise_mergeSort_isLE (xs : List α) :
    (xs.mergeSort fun a b => (cmp a b).isLE).Pairwise fun a b => (cmp a b).isLE = true :=
  List.pairwise_mergeSort (fun _ _ _ => TransCmp.isLE_trans) isLE_total xs

end Preorders

variable {α : Type} {cmp : α → α → Ordering} {xs ys : List α}

/-! ## Comparisons on some items -/

/-- Of these items, what is not after a second one is not after what the second is not after. -/
def TransitiveOn (cmp : α → α → Ordering) (xs : List α) : Prop :=
  ∀ a ∈ xs, ∀ b ∈ xs, ∀ c ∈ xs, (cmp a b).isLE = true → (cmp b c).isLE = true →
    (cmp a c).isLE = true

instance : Decidable (TransitiveOn cmp xs) :=
  inferInstanceAs (Decidable (∀ a ∈ xs, ∀ b ∈ xs, ∀ c ∈ xs, _ → _ → _))

theorem TransitiveOn.mono (h : TransitiveOn cmp ys) (hsub : xs ⊆ ys) : TransitiveOn cmp xs :=
  fun a ha b hb c hc => h a (hsub ha) b (hsub hb) c (hsub hc)

theorem TransitiveOn.comap {β : Type} {g : β → α} {items : List β}
    (h : TransitiveOn cmp (items.map g)) : TransitiveOn (fun a b => cmp (g a) (g b)) items :=
  fun _ ha _ hb _ hc =>
    h _ (List.mem_map_of_mem ha) _ (List.mem_map_of_mem hb) _ (List.mem_map_of_mem hc)

theorem transitiveOn_of_agree {other : α → α → Ordering} [TransCmp other]
    (h : ∀ a ∈ xs, ∀ b ∈ xs, cmp a b = other a b) : TransitiveOn cmp xs := by
  intro a ha b hb c hc hab hbc
  rw [h a ha b hb] at hab
  rw [h b hb c hc] at hbc
  rw [h a ha c hc]
  exact TransCmp.isLE_trans hab hbc

/-- Outside the items the total preorder is made up: all that stands there ties, and goes last. -/
theorem TransitiveOn.exists_transCmp [OrientedCmp cmp] (h : TransitiveOn cmp xs) :
    ∃ other : α → α → Ordering, TransCmp other ∧ ∀ a ∈ xs, ∀ b ∈ xs, cmp a b = other a b := by
  classical
  let other (a b : α) : Ordering :=
    if a ∈ xs then if b ∈ xs then cmp a b else .lt else if b ∈ xs then .gt else .eq
  have hinside : ∀ a ∈ xs, ∀ b ∈ xs, other a b = cmp a b := by
    intro a ha b hb
    simp only [other, if_pos ha, if_pos hb]
  have hbefore {a b : α} (hb : b ∈ xs) (hle : (other a b).isLE = true) : a ∈ xs := by
    apply Classical.byContradiction
    intro ha
    simp only [other, if_neg ha, if_pos hb] at hle
    cases hle
  refine ⟨other, { eq_swap := ?_, isLE_trans := ?_ }, fun a ha b hb => (hinside a ha b hb).symm⟩
  · intro a b
    by_cases ha : a ∈ xs <;> by_cases hb : b ∈ xs <;> simp only [other, ha, hb, if_true, if_false]
    · exact OrientedCmp.eq_swap
    · rfl
    · rfl
    · rfl
  · intro a b c hab hbc
    by_cases hc : c ∈ xs
    · have hb := hbefore hc hbc
      have ha := hbefore hb hab
      rw [hinside a ha b hb] at hab
      rw [hinside b hb c hc] at hbc
      rw [hinside a ha c hc]
      exact h a ha b hb c hc hab hbc
    · by_cases ha : a ∈ xs <;> simp only [other, ha, hc, if_true, if_false] <;> rfl

/-- Where two comparisons are transitive, so is the first with the second for its ties. -/
theorem TransitiveOn.lex {first second : α → α → Ordering} [OrientedCmp first]
    [OrientedCmp second] (hfirst : TransitiveOn first xs) (hsecond : TransitiveOn second xs) :
    TransitiveOn (compareLex first second) xs := by
  obtain ⟨front, hfront, hfrontEq⟩ := hfirst.exists_transCmp
  obtain ⟨back, hback, hbackEq⟩ := hsecond.exists_transCmp
  have hagree : ∀ a ∈ xs, ∀ b ∈ xs, compareLex first second a b = compareLex front back a b := by
    intro a ha b hb
    rw [compareLex, hfrontEq a ha b hb, hbackEq a ha b hb]
    rfl
  exact transitiveOn_of_agree hagree

/-- The laws of a total preorder, on these items. -/
structure PreordersOn (cmp : α → α → Ordering) (xs : List α) : Prop where
  self : ∀ a ∈ xs, cmp a a = .eq
  swap : ∀ a ∈ xs, ∀ b ∈ xs, cmp b a = (cmp a b).swap
  lt_trans : ∀ a ∈ xs, ∀ b ∈ xs, ∀ c ∈ xs, cmp a b = .lt → cmp b c = .lt → cmp a c = .lt
  eq_trans : ∀ a ∈ xs, ∀ b ∈ xs, ∀ c ∈ xs, cmp a b = .eq → cmp b c = .eq → cmp a c = .eq
  lt_of_lt_of_eq : ∀ a ∈ xs, ∀ b ∈ xs, ∀ c ∈ xs, cmp a b = .lt → cmp b c = .eq → cmp a c = .lt
  lt_of_eq_of_lt : ∀ a ∈ xs, ∀ b ∈ xs, ∀ c ∈ xs, cmp a b = .eq → cmp b c = .lt → cmp a c = .lt

theorem preordersOn_of_transitiveOn [OrientedCmp cmp] (h : TransitiveOn cmp xs) :
    PreordersOn cmp xs := by
  obtain ⟨other, hother, hagree⟩ := h.exists_transCmp
  refine ⟨fun _ _ => ReflCmp.compare_self, fun _ _ _ _ => OrientedCmp.eq_swap, ?_, ?_, ?_, ?_⟩
  all_goals
    intro a ha b hb c hc
    rw [hagree a ha b hb, hagree b hb c hc, hagree a ha c hc]
  · exact TransCmp.lt_trans
  · exact TransCmp.eq_trans
  · exact TransCmp.lt_of_lt_of_eq
  · exact TransCmp.lt_of_eq_of_lt

/-! ## Sorted with ties in place -/

/-- The same items in order, those that tie as they stood before. -/
structure StablySorted (cmp : α → α → Ordering) (before after : List α) : Prop where
  perm : after.Perm before
  ordered : after.Pairwise fun a b => (cmp a b).isLE = true
  ties : ∀ a ∈ before, (after.filter fun b => cmp a b = .eq) = before.filter fun b => cmp a b = .eq

theorem mergeSort_isLE_congr {other : α → α → Ordering}
    (h : ∀ a ∈ xs, ∀ b ∈ xs, cmp a b = other a b) :
    (xs.mergeSort fun a b => (cmp a b).isLE) = xs.mergeSort fun a b => (other a b).isLE := by
  apply mergeSort_congr
  intro a ha b hb
  rw [h a ha b hb]

/-- Items that all tie are in order already. -/
theorem mergeSort_filter_eq [TransCmp cmp] (a : α) (xs : List α) :
    ((xs.filter fun b => cmp a b = .eq).mergeSort fun b c => (cmp b c).isLE) =
      xs.filter fun b => cmp a b = .eq := by
  apply List.mergeSort_of_pairwise
  apply List.pairwise_of_forall_mem_list
  intro b hb c hc
  have hab : cmp a b = .eq := by simpa using (List.mem_filter.1 hb).2
  have hac : cmp a c = .eq := by simpa using (List.mem_filter.1 hc).2
  rw [TransCmp.eq_trans (OrientedCmp.eq_symm hab) hac]
  rfl

theorem stablySorted_mergeSort [OrientedCmp cmp] (h : TransitiveOn cmp xs) :
    StablySorted cmp xs (xs.mergeSort fun a b => (cmp a b).isLE) := by
  obtain ⟨other, hother, hagree⟩ := h.exists_transCmp
  rw [mergeSort_isLE_congr hagree]
  have hperm := List.mergeSort_perm xs fun a b => (other a b).isLE
  refine ⟨hperm, ?_, fun a ha => ?_⟩
  · apply (pairwise_mergeSort_isLE xs).imp_of_mem
    intro a b ha hb hab
    rwa [hagree a (hperm.mem_iff.1 ha) b (hperm.mem_iff.1 hb)]
  · have htie : ∀ zs : List α, zs ⊆ xs →
        (zs.filter fun b => cmp a b = .eq) = zs.filter fun b => other a b = .eq := by
      intro zs hzs
      apply List.filter_congr
      intro b hb
      rw [hagree a ha b (hzs hb)]
    rw [htie _ hperm.subset, htie xs (List.Subset.refl xs), filter_mergeSort_isLE,
      mergeSort_filter_eq]

/-! ## Sorting part by part -/

/-- Two parts of which the first is not after the second are sorted one by one. -/
theorem mergeSort_append [TransCmp cmp] {xs ys : List α}
    (h : ∀ a ∈ xs, ∀ b ∈ ys, (cmp a b).isLE = true) :
    ((xs ++ ys).mergeSort fun a b => (cmp a b).isLE) =
      (xs.mergeSort fun a b => (cmp a b).isLE) ++ ys.mergeSort fun a b => (cmp a b).isLE := by
  have htrans : ∀ a b c, (cmp a b).isLE = true → (cmp b c).isLE = true → (cmp a c).isLE = true :=
    fun _ _ _ => TransCmp.isLE_trans
  induction xs with
  | nil => simp only [List.nil_append, List.mergeSort_nil]
  | cons a rest ih =>
    obtain ⟨low, high, hall, hrest, hlow⟩ := List.mergeSort_cons htrans isLE_total a (rest ++ ys)
    obtain ⟨low', high', hall', hrest', hlow'⟩ := List.mergeSort_cons htrans isLE_total a rest
    rw [ih fun b hb => h b (List.mem_cons_of_mem a hb), hrest', List.append_assoc] at hrest
    -- the head goes to the same place, between what is before it and the rest
    have hhigh : ∀ b ∈ high, (cmp a b).isLE = true := by
      have hsorted := @pairwise_mergeSort_isLE _ cmp _ (a :: rest ++ ys)
      rw [List.cons_append, hall] at hsorted
      exact (List.pairwise_cons.1 (List.pairwise_append.1 hsorted).2.1).1
    have hhigh' : ∀ b ∈ high' ++ ys.mergeSort fun a b => (cmp a b).isLE,
        (cmp a b).isLE = true := by
      intro b hb
      rcases List.mem_append.1 hb with hb | hb
      · have hsorted := @pairwise_mergeSort_isLE _ cmp _ (a :: rest)
        rw [hall'] at hsorted
        exact (List.pairwise_cons.1 (List.pairwise_append.1 hsorted).2.1).1 b hb
      · exact h a List.mem_cons_self b (List.mem_mergeSort.1 hb)
    obtain ⟨hfront, hback⟩ := append_eq_append_of_separated
      (p := fun b => !(cmp a b).isLE) hrest hlow' (fun b hb => by rw [hhigh' b hb]; rfl) hlow
      (fun b hb => by rw [hhigh b hb]; rfl)
    rw [List.cons_append, hall, hall', ← hfront, ← hback, List.append_assoc, List.cons_append]

/-- Blocks that stand in order are sorted one by one. -/
theorem mergeSort_flatten [TransCmp cmp] {blocks : List (List α)}
    (h : blocks.Pairwise fun front back => ∀ a ∈ front, ∀ b ∈ back, (cmp a b).isLE = true) :
    (blocks.flatten.mergeSort fun a b => (cmp a b).isLE) =
      blocks.flatMap (·.mergeSort fun a b => (cmp a b).isLE) := by
  induction blocks with
  | nil => simp only [List.flatten_nil, List.flatMap_nil, List.mergeSort_nil]
  | cons block rest ih =>
    obtain ⟨hblock, hrest⟩ := List.pairwise_cons.1 h
    have hparts : ∀ a ∈ block, ∀ b ∈ rest.flatten, (cmp a b).isLE = true := by
      intro a ha b hb
      obtain ⟨back, hback, hmem⟩ := List.mem_flatten.1 hb
      exact hblock back hback a ha b hmem
    rw [List.flatten_cons, mergeSort_append hparts, ih hrest, List.flatMap_cons]

end FederatedJoin.Sorting
