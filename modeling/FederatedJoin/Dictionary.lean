-- SUMMARY: Name-to-value dictionaries kept as pairs in ascending order of name.

/-!
# Dictionaries

A dictionary is a list of pairs whose names ascend strictly, so that two
dictionaries with the same content are the same list. `insert` keeps the order
and replaces the value of a name that is present.
-/

namespace FederatedJoin

abbrev Dictionary (α : Type) : Type := List (String × α)

namespace Dictionary

variable {α : Type}

def get? (name : String) : Dictionary α → Option α
  | [] => none
  | (k, v) :: rest => if k = name then some v else get? name rest

def contains (name : String) (d : Dictionary α) : Bool := (d.get? name).isSome

def insert (name : String) (value : α) : Dictionary α → Dictionary α
  | [] => [(name, value)]
  | (k, v) :: rest =>
    if name = k then (name, value) :: rest
    else if name < k then (name, value) :: (k, v) :: rest
    else (k, v) :: insert name value rest

/-- Later pairs replace earlier ones. -/
def ofList (pairs : List (String × α)) : Dictionary α :=
  pairs.foldl (fun d p => insert p.1 p.2 d) []

def Ascending (d : Dictionary α) : Prop := d.Pairwise (·.1 < ·.1)

instance (d : Dictionary α) : Decidable d.Ascending :=
  inferInstanceAs (Decidable (List.Pairwise _ _))

/-! ## Reading after writing -/

@[simp] theorem get?_nil (name : String) : get? name ([] : Dictionary α) = none := rfl

theorem get?_insert (name other : String) (value : α) (d : Dictionary α) :
    get? other (insert name value d) = if name = other then some value else get? other d := by
  induction d with
  | nil => simp [insert, get?]
  | cons p rest ih =>
    obtain ⟨k, v⟩ := p
    by_cases h : name = k
    · subst h; by_cases ho : name = other <;> simp [insert, get?, ho]
    · by_cases hlt : name < k
      · simp [insert, get?, h, hlt]
      · by_cases hk : k = other
        · subst hk; simp [insert, get?, h, hlt]
        · simp [insert, get?, h, hlt, hk, ih]

@[simp] theorem get?_insert_self (name : String) (value : α) (d : Dictionary α) :
    get? name (insert name value d) = some value := by simp [get?_insert]

theorem get?_insert_of_ne {name other : String} (h : name ≠ other) (value : α)
    (d : Dictionary α) : get? other (insert name value d) = get? other d := by
  simp [get?_insert, h]

/-! ## Writing under two names -/

theorem insert_comm_of_lt {name other : String} (h : name < other) (value more : α)
    (d : Dictionary α) :
    insert name value (insert other more d) = insert other more (insert name value d) := by
  have hne : name ≠ other := fun heq => String.lt_irrefl other (heq ▸ h)
  have hnot : ¬ other < name := String.lt_asymm h
  induction d with
  | nil => simp [insert, hne, hne.symm, hnot, h]
  | cons p rest ih =>
    obtain ⟨k, v⟩ := p
    by_cases hk : name = k
    · subst hk
      simp [insert, hne.symm, hnot]
    · by_cases hlt : name < k
      · by_cases hok : other = k
        · subst hok
          simp [insert, hne, hne.symm, hnot, h]
        · by_cases holt : other < k
          · simp [insert, hk, hlt, hok, holt, hne, hne.symm, hnot, h]
          · simp [insert, hk, hlt, hok, holt, hne.symm, hnot]
      · -- both belong behind the first name
        have hgt : k < name := Std.lt_of_le_of_ne (String.not_lt.1 hlt) (Ne.symm hk)
        have hogt : k < other := String.lt_trans hgt h
        have hok : other ≠ k := fun heq => String.lt_irrefl k (heq ▸ hogt)
        have holt : ¬ other < k := String.lt_asymm hogt
        simp [insert, hk, hlt, hok, holt, ih]

/-- Whatever the dictionary holds, values under different names may be written in either order. -/
theorem insert_comm {name other : String} (h : name ≠ other) (value more : α)
    (d : Dictionary α) :
    insert name value (insert other more d) = insert other more (insert name value d) := by
  by_cases hlt : name < other
  · exact insert_comm_of_lt hlt value more d
  · have hgt : other < name := Std.lt_of_le_of_ne (String.not_lt.1 hlt) h.symm
    exact (insert_comm_of_lt hgt more value d).symm

/-! ## Order -/

theorem fst_mem_insert {name : String} {value : α} {d : Dictionary α} {p : String × α}
    (h : p ∈ insert name value d) : p = (name, value) ∨ p ∈ d := by
  induction d with
  | nil => simpa [insert] using h
  | cons q rest ih =>
    simp only [insert] at h
    split at h
    · rcases List.mem_cons.1 h with h | h
      · exact .inl h
      · exact .inr (List.mem_cons_of_mem _ h)
    · split at h
      · rcases List.mem_cons.1 h with h | h
        · exact .inl h
        · exact .inr h
      · rcases List.mem_cons.1 h with h | h
        · exact .inr (h ▸ List.mem_cons_self)
        · exact (ih h).imp_right (List.mem_cons_of_mem _)

theorem Ascending.insert {d : Dictionary α} (h : d.Ascending) (name : String) (value : α) :
    (Dictionary.insert name value d).Ascending := by
  induction d with
  | nil => simp [Dictionary.insert, Ascending]
  | cons p rest ih =>
    obtain ⟨hp, hrest⟩ := List.pairwise_cons.1 h
    simp only [Dictionary.insert]
    split
    · rename_i he
      exact List.pairwise_cons.2 ⟨fun q hq => he ▸ hp q hq, hrest⟩
    · rename_i hne
      split
      · rename_i hlt
        refine List.pairwise_cons.2 ⟨fun q hq => ?_, h⟩
        rcases List.mem_cons.1 hq with rfl | hq
        · exact hlt
        · exact String.lt_trans hlt (hp q hq)
      · rename_i hnlt
        have hgt : p.1 < name := Std.lt_of_le_of_ne (String.not_lt.1 hnlt) (Ne.symm hne)
        refine List.pairwise_cons.2 ⟨fun q hq => ?_, ih hrest⟩
        rcases fst_mem_insert hq with rfl | hq
        · exact hgt
        · exact hp q hq

theorem ascending_ofList (pairs : List (String × α)) : (ofList pairs).Ascending := by
  suffices ∀ d : Dictionary α, d.Ascending →
      (pairs.foldl (fun d p => insert p.1 p.2 d) d).Ascending from this [] List.Pairwise.nil
  induction pairs with
  | nil => exact fun _ h => h
  | cons p rest ih => exact fun d h => ih _ (h.insert p.1 p.2)

end Dictionary

end FederatedJoin
