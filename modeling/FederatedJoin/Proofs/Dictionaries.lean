-- SUMMARY: Dictionaries told by the pairs they were made of and by what their names read as.
import FederatedJoin.Dictionary
import Mathlib.Data.List.Induction
import Mathlib.Data.List.Nodup
import Mathlib.Data.List.Perm.Basic

/-!
# Dictionaries from pairs and by names

The dictionary of some pairs holds them all if no name is repeated, and it does not
depend on the order in which they came. Of a repeated name the last pair stays. A
dictionary is known by what its names read as, and a change to every value changes
what they read as in the same way.
-/

namespace FederatedJoin.Dictionary

variable {α β : Type} {name : String} {value : α}

/-! ## Listed pairs -/

theorem insert_perm {name : String} {d : Dictionary α} (h : name ∉ d.map (·.1)) (value : α) :
    (insert name value d).Perm ((name, value) :: d) := by
  induction d with
  | nil => exact List.Perm.refl _
  | cons p rest ih =>
    rw [List.map_cons, List.mem_cons, not_or] at h
    simp only [insert, if_neg h.1]
    split
    · exact List.Perm.refl _
    · exact ((ih h.2).cons p).trans (List.Perm.swap (name, value) p rest)

theorem ofList_concat (pairs : List (String × α)) (p : String × α) :
    ofList (pairs ++ [p]) = insert p.1 p.2 (ofList pairs) := List.foldl_concat ..

/-- Without repeated names every pair is kept. -/
theorem ofList_perm_self {pairs : List (String × α)} (h : (pairs.map (·.1)).Nodup) :
    (ofList pairs).Perm pairs := by
  induction pairs using List.reverseRecOn with
  | nil => exact List.Perm.refl _
  | append_singleton pairs p ih =>
    rw [List.map_append, List.map_singleton] at h
    have hold := ih (List.nodup_append'.1 h).1
    have hnew : p.1 ∉ (ofList pairs).map (·.1) := by
      rw [(hold.map _).mem_iff]
      exact fun hmem => (List.nodup_append'.1 h).2.2 hmem List.mem_cons_self
    rw [ofList_concat]
    exact (insert_perm hnew p.2).trans
      ((hold.cons p).trans (List.perm_append_singleton p pairs).symm)

/-- Two orders of the same pairs make one dictionary. -/
theorem ofList_eq_of_perm {as bs : List (String × α)} (hnames : (as.map (·.1)).Nodup)
    (h : as.Perm bs) : ofList as = ofList bs := by
  apply h.foldl_eq'
  intro p hp q hq d
  by_cases hsame : p = q
  · rw [hsame]
  · exact insert_comm (fun heq => hsame (List.inj_on_of_nodup_map hnames hp hq heq.symm)) ..

theorem Ascending.nodup {d : Dictionary α} (h : d.Ascending) : (d.map (·.1)).Nodup :=
  List.pairwise_map.2 (h.imp String.ne_of_lt)

theorem insert_of_forall_lt {name : String} {d : Dictionary α} (h : ∀ p ∈ d, p.1 < name)
    (value : α) : insert name value d = d ++ [(name, value)] := by
  induction d with
  | nil => rfl
  | cons p rest ih =>
    obtain ⟨hp, hrest⟩ := List.forall_mem_cons.1 h
    simp only [insert, if_neg (String.ne_of_lt hp).symm, if_neg (String.lt_asymm hp), ih hrest,
      List.cons_append]

theorem ofList_of_ascending {d : Dictionary α} (h : d.Ascending) : ofList d = d := by
  induction d using List.reverseRecOn with
  | nil => rfl
  | append_singleton d p ih =>
    obtain ⟨hd, -, hlast⟩ := List.pairwise_append.1 h
    rw [ofList_concat, ih hd,
      insert_of_forall_lt fun q hq => hlast q hq p List.mem_cons_self]

/-! ## Names -/

theorem mem_of_get? {d : Dictionary α} (h : d.get? name = some value) : (name, value) ∈ d := by
  induction d with
  | nil => cases h
  | cons p rest ih =>
    rw [get?] at h
    split at h
    · next hname =>
      cases h
      exact hname ▸ List.mem_cons_self
    · exact List.mem_cons_of_mem p (ih h)

theorem get?_of_mem {d : Dictionary α} (hnames : (d.map (·.1)).Nodup) (h : (name, value) ∈ d) :
    d.get? name = some value := by
  induction d with
  | nil => cases h
  | cons p rest ih =>
    rw [List.map_cons, List.nodup_cons] at hnames
    rcases List.mem_cons.1 h with rfl | h
    · exact if_pos rfl
    · have hne : p.1 ≠ name := fun heq => hnames.1 (heq ▸ List.mem_map_of_mem (f := (·.1)) h)
      rw [get?, if_neg hne, ih hnames.2 h]

/-- A dictionary is what its names read as. -/
theorem Ascending.ext {a b : Dictionary α} (ha : a.Ascending) (hb : b.Ascending)
    (h : ∀ name, a.get? name = b.get? name) : a = b := by
  have hmem : ∀ p, p ∈ a ↔ p ∈ b := fun p =>
    ⟨fun hp => mem_of_get? ((h p.1).symm.trans (get?_of_mem ha.nodup hp)),
      fun hp => mem_of_get? ((h p.1).trans (get?_of_mem hb.nodup hp))⟩
  have hperm : a.Perm b :=
    (List.perm_ext_iff_of_nodup ha.nodup.of_map hb.nodup.of_map).2 hmem
  exact hperm.eq_of_pairwise
    (fun p q _ _ hpq hqp => absurd hqp (String.lt_asymm hpq)) ha hb

theorem get?_map (f : String → α → β) (name : String) (d : Dictionary α) :
    get? name (d.map fun p => (p.1, f p.1 p.2)) = (d.get? name).map (f name) := by
  induction d with
  | nil => rfl
  | cons p rest ih =>
    simp only [List.map_cons, get?, ih]
    split
    · next hname => exact congrArg (fun k => some (f k p.2)) hname
    · rfl

/-- The value that was written last under the name. -/
def last? (name : String) (pairs : List (String × α)) : Option α := get? name pairs.reverse

theorem get?_ofList (name : String) (pairs : List (String × α)) :
    get? name (ofList pairs) = last? name pairs := by
  induction pairs using List.reverseRecOn with
  | nil => rfl
  | append_singleton pairs p ih =>
    rw [ofList_concat, get?_insert, ih, last?, last?, List.reverse_concat, get?]

theorem last?_map (f : α → β) (name : String) (pairs : List (String × α)) :
    last? name (pairs.map fun p => (p.1, f p.2)) = (last? name pairs).map f := by
  rw [last?, ← List.map_reverse, get?_map fun _ => f, last?]

theorem mem_of_last? {pairs : List (String × α)} (h : last? name pairs = some value) :
    (name, value) ∈ pairs := List.mem_reverse.1 (mem_of_get? h)

end FederatedJoin.Dictionary
