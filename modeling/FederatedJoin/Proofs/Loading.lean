-- SUMMARY: A dataset of a valid schema becomes a federation, with one collection for each relation.
import FederatedJoin.Dataset
import FederatedJoin.Proofs.Dictionaries
import FederatedJoin.Proofs.Tags

/-!
# Loading datasets

Loading fails on the schema alone. Before a relation looks up its provider, the names
that relations use and that have no rows get an empty collection, so no lookup fails,
and what a lookup finds is what the dataset holds under the name: filling in one name
changes no other, and it changes nothing for a second relation that uses the same name.
-/

namespace FederatedJoin

/-! ## Invalid schemas -/

namespace Relation

variable {seen : List String} {relations : List Relation} {property : String}

/-- Up to some declaration properties are distinct, and that one repeats the property. -/
def FirstRepeats (relations : List Relation) (property : String) : Prop :=
  ∃ front r back, relations = front ++ r :: back ∧ (front.map (·.property)).Nodup ∧
    property ∈ front.map (·.property) ∧ r.property = property

theorem firstRepeated?_append (seen : List String) (front back : List Relation) :
    firstRepeated? seen (front ++ back) = (firstRepeated? seen front).or
      (firstRepeated? ((front.map (·.property)).reverse ++ seen) back) := by
  induction front generalizing seen with
  | nil => rfl
  | cons first rest ih =>
    by_cases hfirst : first.property ∈ seen
    · simp [firstRepeated?, hfirst]
    · simp [firstRepeated?, hfirst, ih]

theorem exists_of_firstRepeated? (h : firstRepeated? seen relations = some property) :
    ∃ front r back, relations = front ++ r :: back ∧ firstRepeated? seen front = none ∧
      property ∈ (front.map (·.property)).reverse ++ seen ∧ r.property = property := by
  induction relations generalizing seen with
  | nil => cases h
  | cons first rest ih =>
    rw [firstRepeated?] at h
    by_cases hfirst : first.property ∈ seen
    · rw [if_pos hfirst] at h
      cases h
      exact ⟨[], first, rest, rfl, rfl, hfirst, rfl⟩
    · rw [if_neg hfirst] at h
      obtain ⟨front, r, back, rfl, hnone, hmem, hr⟩ := ih h
      refine ⟨first :: front, r, back, rfl, ?_, ?_, hr⟩
      · rw [firstRepeated?, if_neg hfirst, hnone]
      · simpa using hmem

theorem firstRepeated?_eq_some_iff :
    firstRepeated? [] relations = some property ↔ FirstRepeats relations property := by
  have hnone (front : List Relation) :
      firstRepeated? [] front = none ↔ (front.map (·.property)).Nodup := by
    simp [firstRepeated?_eq_none_iff]
  constructor
  · intro h
    obtain ⟨front, r, back, hsplit, hfront, hmem, hr⟩ := exists_of_firstRepeated? h
    exact ⟨front, r, back, hsplit, (hnone front).1 hfront, by simpa using hmem, hr⟩
  · rintro ⟨front, r, back, rfl, hfront, hmem, rfl⟩
    rw [firstRepeated?_append, (hnone front).2 hfront, Option.none_or, firstRepeated?, if_pos]
    simpa using hmem

end Relation

theorem Schema.validate_eq_error_iff {s : Schema} {e : Failure} : s.validate = .error e ↔
    (s.root.primaryKey = "" ∧ e = .missingRootKey s.root.entity) ∨
      (s.root.primaryKey ≠ "" ∧
        ∃ property, Relation.FirstRepeats s.relations property ∧
          e = .duplicateRelation property) := by
  simp only [← Relation.firstRepeated?_eq_some_iff]
  unfold validate
  by_cases hkey : s.root.primaryKey = ""
  · rw [if_pos (String.isEmpty_iff.2 hkey)]
    simp [hkey, eq_comm (a := e)]
  · rw [if_neg (mt String.isEmpty_iff.1 hkey)]
    cases Relation.firstRepeated? [] s.relations with
    | none => simp [hkey]
    | some property => simp [hkey, eq_comm (a := e)]

/-! ## Bound relations -/

theorem Binding.resolve_eq_ok {α : Type} {directory : Dictionary α} {serve : String → α}
    {relations : List Relation}
    (h : ∀ r ∈ relations, directory.get? r.provider = some (serve r.provider)) :
    resolve directory relations = .ok (relations.map fun r => ⟨r, serve r.provider⟩) := by
  induction relations with
  | nil => rfl
  | cons r rest ih =>
    obtain ⟨hr, hrest⟩ := List.forall_mem_cons.1 h
    simp only [resolve, hr, ih hrest]
    rfl

theorem Federation.make_eq_ok {α : Type} {schema : Schema} {root : α} {directory : Dictionary α}
    {limits : Limits} {bindings : List (Binding α)} (hvalid : schema.validate = .ok ())
    (h : Binding.resolve directory schema.relations = .ok bindings) :
    make schema root directory limits =
      .ok ⟨schema, root, bindings, Binding.map_relation_of_resolve h, limits⟩ := by
  simp only [make, hvalid]
  split
  · next hfound => cases h.symm.trans hfound
  · next hfound =>
    cases h.symm.trans hfound
    rfl

namespace Dataset

variable (d : Dataset) (limits : Limits)

/-- The rows under the name, or none. -/
def served (name : String) : Collection := ⟨name, (d.collections.get? name).getD []⟩

/-- The federation of a valid dataset. -/
def loaded : Federation Collection where
  schema := d.schema
  root := ⟨d.schema.root.entity, d.roots⟩
  bindings := d.schema.relations.map fun r => ⟨r, d.served r.provider⟩
  aligned := by rw [List.map_map]; exact List.map_id _
  limits := limits

/-- Filling in the name of one relation changes what that name reads as from nothing to no rows. -/
theorem get?_fill (rows : Dictionary (List Record)) (r : Relation) (name : String) :
    Dictionary.get? name (if rows.contains r.provider then rows else rows.insert r.provider []) =
      if r.provider = name then some ((rows.get? name).getD []) else rows.get? name := by
  by_cases hname : r.provider = name
  · subst hname
    cases hrows : rows.get? r.provider <;> simp [Dictionary.contains, hrows]
  · rw [if_neg hname, apply_ite (Dictionary.get? name), Dictionary.get?_insert_of_ne hname,
      ite_self]

theorem get?_filled (name : String) : d.filled.get? name =
    if name ∈ d.schema.relations.map (·.provider) then some ((d.collections.get? name).getD [])
    else d.collections.get? name := by
  rw [filled]
  generalize d.collections = rows
  induction d.schema.relations generalizing rows with
  | nil => rfl
  | cons r rest ih =>
    rw [List.foldl_cons, ih, get?_fill]
    by_cases hr : r.provider = name
    · simp [hr]
    · simp [hr, Ne.symm hr]

theorem get?_directory (name : String) :
    d.directory.get? name = (d.filled.get? name).map fun rows => ⟨name, rows⟩ :=
  Dictionary.get?_map (fun name rows => (⟨name, rows⟩ : Collection)) name d.filled

/-- The collections may be registered one after the other in any order. -/
theorem ofList_eq_directory (h : d.collections.Ascending) {pairs : List (String × Collection)}
    (hpairs : pairs.Perm d.directory) : Dictionary.ofList pairs = d.directory := by
  have hfilled : d.filled.Ascending := by
    rw [filled]
    generalize d.collections = rows at h
    induction d.schema.relations generalizing rows with
    | nil => exact h
    | cons r rest ih =>
      refine ih _ ?_
      show Dictionary.Ascending
        (if rows.contains r.provider then rows else rows.insert r.provider [])
      split
      · exact h
      · exact h.insert r.provider []
  have hdirectory : d.directory.Ascending := List.pairwise_map.2 hfilled
  rw [← Dictionary.ofList_eq_of_perm hdirectory.nodup hpairs.symm,
    Dictionary.ofList_of_ascending hdirectory]

theorem resolve_directory : Binding.resolve d.directory d.schema.relations =
    .ok (d.schema.relations.map fun r => ⟨r, d.served r.provider⟩) := by
  refine Binding.resolve_eq_ok fun r hr => ?_
  rw [get?_directory, get?_filled, if_pos (List.mem_map_of_mem hr)]
  rfl

/-- Whether a dataset loads depends on its schema alone. -/
theorem federation_eq : d.federation limits = d.schema.validate.map fun _ => d.loaded limits := by
  cases hvalid : d.schema.validate with
  | error e => simp only [federation, Federation.make, hvalid, Except.map]
  | ok => exact Federation.make_eq_ok hvalid d.resolve_directory

/-- Loading fails on a root without a primary key and on a repeated property, which it names, and
never on a provider. Otherwise the relations are bound in the order of their declarations, each to
the rows of the name it gives, or to no rows. -/
theorem federation_loads :
    ((∃ e, d.federation limits = .error e) ↔
      d.schema.root.primaryKey = "" ∨ ¬ (d.schema.relations.map (·.property)).Nodup) ∧
    (∀ e, d.federation limits = .error e ↔
      (d.schema.root.primaryKey = "" ∧ e = .missingRootKey d.schema.root.entity) ∨
      (d.schema.root.primaryKey ≠ "" ∧ ∃ property,
        Relation.FirstRepeats d.schema.relations property ∧ e = .duplicateRelation property)) ∧
    (∀ relation provider, d.federation limits ≠ .error (.missingProvider relation provider)) ∧
    ∀ f, d.federation limits = .ok f ↔ d.schema.root.primaryKey ≠ "" ∧
      (d.schema.relations.map (·.property)).Nodup ∧ f = d.loaded limits := by
  have herror (e : Failure) : d.federation limits = .error e ↔ d.schema.validate = .error e := by
    rw [federation_eq]
    cases d.schema.validate <;> simp [Except.map]
  have hok (f : Federation Collection) : d.federation limits = .ok f ↔
      d.schema.validate = .ok () ∧ f = d.loaded limits := by
    rw [federation_eq]
    cases d.schema.validate <;> simp [Except.map, eq_comm (a := f)]
  have hvalid : d.schema.validate = .ok () ↔ d.schema.root.primaryKey ≠ "" ∧
      (d.schema.relations.map (·.property)).Nodup := by
    rw [Schema.validate_eq_ok_iff, Ne, ← String.isEmpty_iff, Bool.not_eq_true]
  have hfails : (∃ e, d.schema.validate = .error e) ↔ ¬ d.schema.validate = .ok () := by
    cases d.schema.validate <;> simp
  refine ⟨?_, fun e => (herror e).trans Schema.validate_eq_error_iff, fun relation provider => ?_,
    fun f => ?_⟩
  · rw [exists_congr herror, hfails, hvalid, not_and_or, not_not]
  · simp [herror, Schema.validate_eq_error_iff]
  · rw [hok, hvalid, and_assoc]

end Dataset

end FederatedJoin
