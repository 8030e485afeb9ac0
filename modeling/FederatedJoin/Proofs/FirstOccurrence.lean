-- SUMMARY: What stays of repeated join keys: their first occurrences, whatever way the rows were split.
import FederatedJoin.FirstRows

/-!
# First occurrences

Keys are collected from one part of the rows after the other, and repeated keys
are dropped after each part. The lemmas below say that the parts do not matter:
the outcome is the first occurrences of the whole. The same holds of the rows
remembered under their keys.
-/

namespace FederatedJoin

namespace FirstOccurrence

variable {α : Type} [BEq α] [LawfulBEq α]

theorem eraseDups_filter (p : α → Bool) (xs : List α) :
    (xs.filter p).eraseDups = xs.eraseDups.filter p := by
  match xs with
  | [] => rfl
  | x :: xs =>
    have ih := eraseDups_filter p (xs.filter fun y => !y == x)
    rw [List.eraseDups_cons, List.filter_cons, List.filter_cons, ← ih]
    split
    · simp only [List.eraseDups_cons, List.filter_filter]
      simp only [Bool.and_comm]
    · next hx =>
      -- a refused head takes its repetitions with it
      rw [List.filter_filter]
      congr 1
      apply List.filter_congr
      intro y _
      by_cases hy : y = x
      · simp [hy, hx]
      · simp [hy]
termination_by xs.length
decreasing_by exact Nat.lt_succ_of_le (List.length_filter_le ..)

theorem nodup_eraseDups (xs : List α) : xs.eraseDups.Nodup := by
  match xs with
  | [] => exact List.nodup_nil
  | x :: xs =>
    simp only [List.eraseDups_cons, List.nodup_cons]
    exact ⟨by simp, nodup_eraseDups _⟩
termination_by xs.length
decreasing_by exact Nat.lt_succ_of_le (List.length_filter_le ..)

theorem eraseDups_of_nodup {xs : List α} (h : xs.Nodup) : xs.eraseDups = xs := by
  induction xs with
  | nil => rfl
  | cons x xs ih =>
    obtain ⟨hx, hxs⟩ := List.nodup_cons.1 h
    have hfilter : (xs.filter fun y => !y == x) = xs := by
      apply List.filter_eq_self.2
      intro y hy
      have hne : y ≠ x := fun e => hx (e ▸ hy)
      simp [hne]
    simp only [List.eraseDups_cons, hfilter, ih hxs]

/-- Dropping repetitions of the parts first changes nothing. -/
theorem eraseDups_append_eraseDups (xs ys : List α) :
    (xs.eraseDups ++ ys.eraseDups).eraseDups = (xs ++ ys).eraseDups := by
  have hfirst : xs.eraseDups.eraseDups = xs.eraseDups := eraseDups_of_nodup (nodup_eraseDups xs)
  have hrest : ys.eraseDups.removeAll xs.eraseDups = (ys.removeAll xs).eraseDups := by
    simp [List.removeAll, eraseDups_filter]
  rw [List.eraseDups_append, List.eraseDups_append, hfirst, hrest,
    eraseDups_of_nodup (nodup_eraseDups _)]

omit [LawfulBEq α] in
theorem eraseDups_sublist (xs : List α) : xs.eraseDups.Sublist xs := by
  match xs with
  | [] => exact List.Sublist.refl _
  | x :: xs =>
    rw [List.eraseDups_cons]
    exact ((eraseDups_sublist _).trans List.filter_sublist).cons_cons x
termination_by xs.length
decreasing_by exact Nat.lt_succ_of_le (List.length_filter_le ..)

theorem eraseDups_mono {xs ys : List α} (h : xs <+: ys) : xs.eraseDups <+: ys.eraseDups := by
  obtain ⟨zs, rfl⟩ := h
  rw [List.eraseDups_append]
  exact List.prefix_append ..

section Repetitions

variable {α β : Type}

theorem eraseDupsBy_sublist (same : α → α → Bool) (xs : List α) :
    (xs.eraseDupsBy same).Sublist xs := by
  match xs with
  | [] => exact List.Sublist.refl _
  | x :: xs =>
    rw [List.eraseDupsBy_cons]
    exact ((eraseDupsBy_sublist same _).trans List.filter_sublist).cons_cons x
termination_by xs.length
decreasing_by exact Nat.lt_succ_of_le (List.length_filter_le ..)

/-- Of elements that repeat each other the test keeps all or none, so it may come first. -/
theorem filter_eraseDupsBy {same : α → α → Bool} {p : α → Bool}
    (h : ∀ a b, same a b = true → p a = p b) (xs : List α) :
    (xs.eraseDupsBy same).filter p = (xs.filter p).eraseDupsBy same := by
  match xs with
  | [] => rfl
  | x :: xs =>
    have ih := filter_eraseDupsBy h (xs.filter fun y => same y x = false)
    rw [List.eraseDupsBy_cons, List.filter_cons, List.filter_cons, ih]
    split
    · rw [List.eraseDupsBy_cons, List.filter_filter, List.filter_filter]
      simp only [Bool.and_comm]
    · next hx =>
      rw [List.filter_filter]
      congr 1
      apply List.filter_congr
      intro y _
      cases hsame : same y x with
      | false => simp
      | true => simpa [h y x hsame] using hx
termination_by xs.length
decreasing_by exact Nat.lt_succ_of_le (List.length_filter_le ..)

theorem map_eraseDupsBy (g : α → β) (same : β → β → Bool) (xs : List α) :
    (xs.map g).eraseDupsBy same = (xs.eraseDupsBy fun a b => same (g a) (g b)).map g := by
  match xs with
  | [] => rfl
  | x :: xs =>
    have ih := map_eraseDupsBy g same (xs.filter fun y => same (g y) (g x) = false)
    rw [List.map_cons, List.eraseDupsBy_cons, List.eraseDupsBy_cons, List.map_cons, ← ih,
      List.filter_map]
    rfl
termination_by xs.length
decreasing_by exact Nat.lt_succ_of_le (List.length_filter_le ..)

/-- What is left out repeats something that is kept. -/
theorem exists_mem_eraseDupsBy (same : α → α → Bool) (hrefl : ∀ a, same a a = true) {x : α}
    {xs : List α} (h : x ∈ xs) : ∃ y ∈ xs.eraseDupsBy same, same x y = true := by
  match xs with
  | first :: rest =>
    rw [List.eraseDupsBy_cons]
    cases hsame : same x first with
    | true => exact ⟨first, List.mem_cons_self, hsame⟩
    | false =>
      have hrest : x ∈ rest := by
        rcases List.mem_cons.1 h with rfl | hrest
        · rw [hrefl] at hsame
          cases hsame
        · exact hrest
      have hkept : x ∈ rest.filter fun y => same y first = false :=
        List.mem_filter.2 ⟨hrest, decide_eq_true hsame⟩
      obtain ⟨y, hy, hxy⟩ := exists_mem_eraseDupsBy same hrefl hkept
      exact ⟨y, List.mem_cons_of_mem _ hy, hxy⟩
termination_by xs.length
decreasing_by exact Nat.lt_succ_of_le (List.length_filter_le ..)

/-- The second part adds what repeats nothing of the first. -/
theorem eraseDupsBy_append {same : α → α → Bool}
    (htrans : ∀ a b c, same a b = true → same b c = true → same a c = true) (xs ys : List α) :
    (xs ++ ys).eraseDupsBy same = xs.eraseDupsBy same ++
      (ys.filter fun y => xs.all fun x => !same y x).eraseDupsBy same := by
  match xs with
  | [] =>
    have hall : (ys.filter fun y => ([] : List α).all fun x => !same y x) = ys :=
      List.filter_eq_self.2 fun _ _ => rfl
    rw [hall]
    rfl
  | x :: xs =>
    have ih := eraseDupsBy_append htrans (xs.filter fun z => same z x = false)
      (ys.filter fun y => same y x = false)
    -- what repeats a dropped element repeats the one that it was dropped for
    have hrest : (ys.filter fun y => same y x = false).filter
          (fun y => (xs.filter fun z => same z x = false).all fun z => !same y z) =
        ys.filter fun y => (x :: xs).all fun z => !same y z := by
      rw [List.filter_filter]
      apply List.filter_congr
      intro y _
      rw [Bool.eq_iff_iff]
      simp only [Bool.and_eq_true, List.all_eq_true, List.mem_filter, List.mem_cons,
        decide_eq_true_eq, Bool.not_eq_true', and_imp, forall_eq_or_imp]
      constructor
      · rintro ⟨hkept, hfirst⟩
        refine ⟨hfirst, fun z hz => Bool.eq_false_iff.2 fun hyz => ?_⟩
        cases hzx : same z x with
        | false => exact Bool.eq_false_iff.1 (hkept z hz hzx) hyz
        | true => exact Bool.eq_false_iff.1 hfirst (htrans y z x hyz hzx)
      · exact fun ⟨hfirst, hxs⟩ => ⟨fun z hz _ => hxs z hz, hfirst⟩
    rw [List.cons_append, List.eraseDupsBy_cons, List.eraseDupsBy_cons, List.filter_append, ih,
      hrest, List.cons_append]
termination_by xs.length
decreasing_by exact Nat.lt_succ_of_le (List.length_filter_le ..)

theorem eraseDupsBy_eq_nil_iff {same : α → α → Bool} {xs : List α} :
    xs.eraseDupsBy same = [] ↔ xs = [] := by
  cases xs <;> simp [List.eraseDupsBy_cons]

end Repetitions

end FirstOccurrence

open FirstOccurrence

/-! ## Join keys of rows -/

namespace Record

theorem nodup_joinKeys (rows : List Record) (field : String) : (joinKeys rows field).Nodup :=
  nodup_eraseDups _

theorem mem_joinKeys {rows : List Record} {field : String} {key : JoinKey} :
    key ∈ joinKeys rows field ↔ ∃ row ∈ rows, row.joinKey? field = some key := by
  simp [joinKeys]

theorem joinKeys_sublist (rows : List Record) (field : String) :
    (joinKeys rows field).Sublist (rows.filterMap (·.joinKey? field)) :=
  eraseDups_sublist _

theorem length_joinKeys_le (rows : List Record) (field : String) :
    (joinKeys rows field).length ≤ rows.length :=
  Nat.le_trans (joinKeys_sublist rows field).length_le (List.length_filterMap_le ..)

theorem joinKeys_mono {some all : List Record} (h : some <+: all) (field : String) :
    joinKeys some field <+: joinKeys all field :=
  eraseDups_mono (h.filterMap _)

/-- More rows add at most as many keys. -/
theorem exists_joinKeys_append (front back : List Record) (field : String) :
    ∃ extra, joinKeys (front ++ back) field = joinKeys front field ++ extra ∧
      extra.length ≤ back.length := by
  refine ⟨_, by rw [joinKeys, List.filterMap_append, List.eraseDups_append, joinKeys], ?_⟩
  have hnew : ((back.filterMap (·.joinKey? field)).removeAll
      (front.filterMap (·.joinKey? field))).length ≤ (back.filterMap (·.joinKey? field)).length :=
    List.length_filter_le ..
  exact Nat.le_trans (eraseDups_sublist _).length_le
    (Nat.le_trans hnew (List.length_filterMap_le ..))

/-- The keys of two parts, each narrowed by the same test, give the narrowed keys of the whole. -/
theorem eraseDups_filter_joinKeys (keep : JoinKey → Bool) (front back : List Record)
    (field : String) :
    ((joinKeys front field).filter keep ++ (joinKeys back field).filter keep).eraseDups =
      (joinKeys (front ++ back) field).filter keep := by
  rw [← List.filter_append, eraseDups_filter, joinKeys, joinKeys, eraseDups_append_eraseDups,
    ← List.filterMap_append, joinKeys]

end Record

/-! ## Rows remembered under their keys -/

namespace FirstRows

/-- The rows that have a key, with it. -/
def keyed (field : String) (rows : List Record) : FirstRows :=
  rows.filterMap fun row => (row.joinKey? field).map (·, row)

theorem map_fst_eraseDupsBy (known : FirstRows) :
    (known.eraseDupsBy fun a b => a.1 == b.1).map (·.1) = (known.map (·.1)).eraseDups := by
  match known with
  | [] => rfl
  | p :: rest =>
    have hrest : (rest.map (·.1)).filter (fun k => !k == p.1) =
        (rest.filter fun q => (q.1 == p.1) = false).map (·.1) := by
      rw [List.filter_map]
      congr 2
      funext q
      by_cases hq : q.1 = p.1 <;> simp [hq]
    rw [List.eraseDupsBy_cons, List.map_cons, List.map_cons, List.eraseDups_cons, hrest,
      map_fst_eraseDupsBy (rest.filter _)]
termination_by known.length
decreasing_by exact Nat.lt_succ_of_le (List.length_filter_le ..)

theorem eraseDupsBy_of_nodup {known : FirstRows} (h : (known.map (·.1)).Nodup) :
    (known.eraseDupsBy fun a b => a.1 == b.1) = known := by
  induction known with
  | nil => rfl
  | cons p rest ih =>
    obtain ⟨hp, hrest⟩ := List.nodup_cons.1 h
    have hfilter : (rest.filter fun q => (q.1 == p.1) = false) = rest := by
      apply List.filter_eq_self.2
      intro q hq
      have hne : q.1 ≠ p.1 := fun e => hp (List.mem_map.2 ⟨q, hq, e⟩)
      simpa using hne
    simp only [List.eraseDupsBy_cons, hfilter, ih hrest]

theorem eraseDupsBy_append (known rows : FirstRows) :
    ((known ++ rows).eraseDupsBy fun a b => a.1 == b.1) =
      (known.eraseDupsBy fun a b => a.1 == b.1) ++
        ((rows.filter fun q => q.1 ∉ known.map (·.1)).eraseDupsBy fun a b => a.1 == b.1) := by
  rw [FirstOccurrence.eraseDupsBy_append fun a b c hab hbc => ?trans]
  case trans =>
    rw [beq_iff_eq] at *
    exact hab.trans hbc
  congr 2
  apply List.filter_congr
  intro q _
  rw [Bool.eq_iff_iff, List.all_eq_true, decide_eq_true_eq, List.mem_map]
  constructor
  · rintro hnew ⟨p, hp, heq⟩
    simpa [heq] using hnew p hp
  · intro hnew p hp
    have hne : q.1 ≠ p.1 := fun heq => hnew ⟨p, hp, heq.symm⟩
    simpa using hne

theorem lookup_filter {known : FirstRows} {key : JoinKey} {keep : JoinKey × Record → Bool}
    (h : ∀ p ∈ known, p.1 = key → keep p = true) :
    (known.filter keep).lookup key = known.lookup key := by
  induction known with
  | nil => rfl
  | cons p rest ih =>
    obtain ⟨k, row⟩ := p
    have hrest := ih fun q hq => h q (List.mem_cons_of_mem _ hq)
    by_cases hp : k = key
    · have hkeep := h (k, row) List.mem_cons_self hp
      simp only [List.filter_cons, if_pos hkeep, List.lookup_cons, hrest]
    · have hne : (key == k) = false := by simpa using Ne.symm hp
      rw [List.filter_cons, List.lookup_cons, hne, ← hrest]
      split
      · simp only [List.lookup_cons, hne]
      · rfl

/-- Of the rows with one key the first is found, whether or not the others were dropped. -/
theorem lookup_eraseDupsBy (known : FirstRows) (key : JoinKey) :
    (known.eraseDupsBy fun a b => a.1 == b.1).lookup key = known.lookup key := by
  match known with
  | [] => rfl
  | p :: rest =>
    rw [List.eraseDupsBy_cons, List.lookup_cons, List.lookup_cons,
      lookup_eraseDupsBy (rest.filter _) key]
    by_cases hp : key = p.1
    · simp [hp]
    · have hne : (key == p.1) = false := by simpa using hp
      rw [hne]
      apply lookup_filter
      intro q _ hq
      simpa [hq] using hp
termination_by known.length
decreasing_by exact Nat.lt_succ_of_le (List.length_filter_le ..)

theorem lookup_keyed (field : String) (rows : List Record) (key : JoinKey) :
    (keyed field rows).lookup key = rows.find? (·.joinKey? field = some key) := by
  induction rows with
  | nil => rfl
  | cons row rest ih =>
    cases hrow : row.joinKey? field with
    | none => simpa [keyed, hrow] using ih
    | some k =>
      by_cases hk : k = key
      · simp [keyed, hrow, hk]
      · have hne : (key == k) = false := by simpa using Ne.symm hk
        simpa [keyed, hrow, hk, List.lookup_cons, hne] using ih

/-- A known row stays; a key that was not known gets its first row. -/
theorem get?_add (known : FirstRows) (field : String) (rows : List Record) (key : JoinKey) :
    (known.add field rows).get? key =
      (known.get? key).or (rows.find? (·.joinKey? field = some key)) := by
  rw [get?, add, lookup_eraseDupsBy, List.lookup_append, ← lookup_keyed, get?, keyed]

theorem nodup_keys_add (known : FirstRows) (field : String) (rows : List Record) :
    ((known.add field rows).map (·.1)).Nodup := by
  simp only [add, map_fst_eraseDupsBy]
  exact nodup_eraseDups _

/-- Rows may be remembered in one go or in two. -/
theorem add_add (known : FirstRows) (field : String) (front back : List Record) :
    (known.add field front).add field back = known.add field (front ++ back) := by
  have hkeys : ∀ q : JoinKey × Record,
      q.1 ∈ (known.add field front).map (·.1) ↔ q.1 ∈ (known ++ keyed field front).map (·.1) := by
    intro q
    simp only [add, map_fst_eraseDupsBy, List.mem_eraseDups, keyed]
  have hsplit : known.add field (front ++ back) =
      ((known ++ keyed field front) ++ keyed field back).eraseDupsBy fun a b => a.1 == b.1 := by
    simp only [add, List.filterMap_append, List.append_assoc]
    rfl
  rw [hsplit, eraseDupsBy_append, add, eraseDupsBy_append,
    eraseDupsBy_of_nodup (nodup_keys_add ..)]
  simp only [hkeys]
  rfl

theorem mem_keys_iff {known : FirstRows} {key : JoinKey} :
    key ∈ known.map (·.1) ↔ (known.get? key).isSome = true := by
  simp only [get?, List.lookup_isSome_iff]
  simp

end FirstRows

end FederatedJoin
