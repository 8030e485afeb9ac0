-- SUMMARY: The place of a relation, looked up in a dictionary or searched for in the declarations.
import FederatedJoin.Proofs.Dictionaries
import FederatedJoin.Proofs.Tags
import Mathlib.Data.List.FinRange

/-!
# Places

A relation is known by its place in the list of declarations. Entering one
declaration after the other into a dictionary of places keeps the last place of a
property, and searching the declarations finds the first. The two are the same for
every name exactly when no property is repeated, which is what a valid schema
guarantees: then a property has one place, and the relation there has the property.
-/

namespace FederatedJoin

theorem Dictionary.get?_eq_find? {α : Type} (name : String) (d : Dictionary α) :
    d.get? name = (d.find? (·.1 = name)).map (·.2) := by
  induction d with
  | nil => rfl
  | cons p rest ih =>
    rw [Dictionary.get?, ih, List.find?_cons]
    split
    · next hname => rw [decide_eq_true hname]; rfl
    · next hname => rw [decide_eq_false hname]

namespace Relation

variable {relations : List Relation} {name : String}

/-- The place of each property; of a repeated property the last. -/
def places (relations : List Relation) : Dictionary Nat :=
  .ofList (relations.zipIdx.map fun p => (p.1.property, p.2))

/-- What the dictionary has under a name is the place that the name resolves to. -/
theorem get?_places (relations : List Relation) (name : String) :
    (places relations).get? name = (resolve? relations name).map Fin.val := by
  have hpairs : relations.zipIdx.map (fun p => (p.1.property, p.2)) =
      (List.finRange relations.length).map fun id => ((relations.get id).property, id.val) := by
    apply List.ext_getElem <;> simp
  rw [places, Dictionary.get?_ofList, Dictionary.last?, hpairs, ← List.map_reverse,
    Dictionary.get?_eq_find?, List.find?_map, Option.map_map]
  rfl

/-- A name resolves to the last place that has it. -/
theorem le_of_resolve? {id : RelationId relations} (h : resolve? relations name = some id)
    (other : RelationId relations) (hother : (relations.get other).property = name) :
    other ≤ id := by
  obtain ⟨-, front, back, hsplit, hfront⟩ := List.find?_eq_some_iff_append.1 h
  have hdescends : (List.finRange relations.length).reverse.Pairwise (· > ·) :=
    List.pairwise_reverse.2 (List.pairwise_lt_finRange _)
  have hmem : other ∈ (List.finRange relations.length).reverse :=
    List.mem_reverse.2 (List.mem_finRange other)
  rw [hsplit] at hdescends hmem
  rcases List.mem_append.1 hmem with hmem | hmem
  · have hnot := hfront other hmem
    rw [decide_eq_true hother] at hnot
    cases hnot
  · rcases List.mem_cons.1 hmem with rfl | hmem
    · exact Fin.le_refl _
    · have hafter := (List.pairwise_append.1 hdescends).2.1
      exact Fin.le_of_lt (List.rel_of_pairwise_cons hafter hmem)

/-- The first place of a name is the last one, for every name, when no property is repeated,
and only then. -/
theorem findIdx?_eq_get?_places_iff :
    (∀ name, relations.findIdx? (·.property = name) = (places relations).get? name) ↔
      (relations.map (·.property)).Nodup := by
  constructor
  · intro hsame
    refine List.pairwise_map.2 (List.pairwise_iff_getElem.2 fun i j hi hj hlt heq => ?_)
    have hplace := hsame relations[i].property
    rw [get?_places] at hplace
    cases hresolved : resolve? relations relations[i].property with
    | none => exact resolve?_eq_none_iff.1 hresolved _ (List.getElem_mem hi) rfl
    | some last =>
      -- the last place is not before the second of the two, so the first of them comes before it
      have hlast : j ≤ last.val := le_of_resolve? hresolved ⟨j, hj⟩ heq.symm
      rw [hresolved] at hplace
      obtain ⟨_, _, hfirst⟩ := List.findIdx?_eq_some_iff_getElem.1 hplace
      exact hfirst i (Nat.lt_of_lt_of_le hlt hlast) (decide_eq_true rfl)
  · intro hnodup name
    rw [get?_places]
    cases hresolved : resolve? relations name with
    | none =>
      refine List.findIdx?_eq_none_iff.2 fun relation hrelation => ?_
      exact decide_eq_false (resolve?_eq_none_iff.1 hresolved relation hrelation)
    | some id =>
      refine List.findIdx?_eq_some_iff_getElem.2 ⟨id.isLt, ?_, fun j hlt hj => ?_⟩
      · exact decide_eq_true (property_of_resolve? hresolved)
      · have hproperty : relations[j].property = relations[id.val].property :=
          (of_decide_eq_true hj).trans (property_of_resolve? hresolved).symm
        have hid : (⟨j, hlt.trans id.isLt⟩ : RelationId relations) = id :=
          property_injective_of_nodup hnodup hproperty
        exact Nat.ne_of_lt hlt (congrArg Fin.val hid)

theorem resolve?_eq_some_iff (h : (relations.map (·.property)).Nodup) (name : String)
    (id : RelationId relations) :
    resolve? relations name = some id ↔ (relations.get id).property = name := by
  constructor
  · exact property_of_resolve?
  · rintro rfl
    exact resolve?_property h id

end Relation

/-- The declaration that a search finds first is the one at the place that the name resolves to. -/
theorem Schema.relation?_eq {s : Schema} (h : (s.relations.map (·.property)).Nodup)
    (name : String) :
    s.relation? name = (Relation.resolve? s.relations name).map s.relations.get := by
  rw [relation?, List.find?_eq_bind_findIdx?_getElem?,
    Relation.findIdx?_eq_get?_places_iff.2 h name, Relation.get?_places]
  cases Relation.resolve? s.relations name with
  | none => rfl
  | some id => exact List.getElem?_eq_getElem id.isLt

end FederatedJoin
