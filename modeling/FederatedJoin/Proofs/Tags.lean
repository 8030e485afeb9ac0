-- SUMMARY: What a tag refers to when no two relations share a property.
import FederatedJoin.Routing

/-!
# Tags

A tag names a relation by its property. Where properties are distinct, the
relation that a tag refers to is the one with that property, wherever it is
declared.
-/

namespace FederatedJoin

namespace Relation

theorem firstRepeated?_eq_none_iff {seen : List String} {relations : List Relation} :
    firstRepeated? seen relations = none ↔
      (relations.map (·.property)).Nodup ∧ ∀ r ∈ relations, r.property ∉ seen := by
  induction relations generalizing seen with
  | nil => exact iff_of_true rfl ⟨List.nodup_nil, fun r hr => nomatch hr⟩
  | cons first rest ih =>
    unfold firstRepeated?
    rw [List.map_cons, List.nodup_cons, List.forall_mem_cons]
    split
    · next hfirst => exact iff_of_false (fun h => nomatch h) fun h => h.2.1 hfirst
    · next hfirst =>
      simp only [ih, List.mem_cons, not_or]
      constructor
      · rintro ⟨hrest, hseen⟩
        refine ⟨⟨fun hmem => ?_, hrest⟩, hfirst, fun r hr => (hseen r hr).2⟩
        obtain ⟨r, hr, heq⟩ := List.mem_map.1 hmem
        exact (hseen r hr).1 heq
      · rintro ⟨⟨hnew, hrest⟩, -, hseen⟩
        exact ⟨hrest, fun r hr => ⟨fun heq => hnew (heq ▸ List.mem_map_of_mem hr), hseen r hr⟩⟩

variable {relations : List Relation}

theorem property_injective_of_nodup (h : (relations.map (·.property)).Nodup) :
    Function.Injective fun id : RelationId relations => (relations.get id).property := by
  intro a b hab
  have hpairs := List.pairwise_iff_getElem.1 (List.pairwise_map.1 h)
  rcases Nat.lt_trichotomy a.val b.val with hlt | heq | hlt
  · exact absurd hab (hpairs a.val b.val a.isLt b.isLt hlt)
  · exact Fin.ext heq
  · exact absurd hab.symm (hpairs b.val a.val b.isLt a.isLt hlt)

/-! ## Resolving properties -/

theorem property_of_resolve? {name : String} {id : RelationId relations}
    (h : resolve? relations name = some id) : (relations.get id).property = name := by
  have hfound := List.find?_some h
  exact of_decide_eq_true hfound

theorem resolve?_eq_none_iff {name : String} :
    resolve? relations name = none ↔ ∀ relation ∈ relations, relation.property ≠ name := by
  simp only [resolve?, List.find?_eq_none, List.mem_reverse, List.mem_finRange, true_imp_iff,
    decide_eq_true_eq]
  constructor
  · intro h relation hrelation
    obtain ⟨id, rfl⟩ := List.get_of_mem hrelation
    exact h id
  · exact fun h id => h _ (List.get_mem relations id)

theorem resolve?_property (h : (relations.map (·.property)).Nodup) (id : RelationId relations) :
    resolve? relations (relations.get id).property = some id := by
  cases hresolved : resolve? relations (relations.get id).property with
  | none => exact absurd rfl (resolve?_eq_none_iff.1 hresolved _ (List.get_mem relations id))
  | some other =>
    exact congrArg some (property_injective_of_nodup h (property_of_resolve? hresolved))

end Relation

namespace Schema

theorem validate_eq_ok_iff {s : Schema} : s.validate = .ok () ↔
    s.root.primaryKey.isEmpty = false ∧ (s.relations.map (·.property)).Nodup := by
  have hnone : Relation.firstRepeated? [] s.relations = none ↔
      (s.relations.map (·.property)).Nodup := by
    rw [Relation.firstRepeated?_eq_none_iff, and_iff_left]
    exact fun _ _ h => nomatch h
  rw [← hnone]
  unfold validate
  cases s.root.primaryKey.isEmpty with
  | true => exact iff_of_false (fun h => nomatch h) fun h => nomatch h.1
  | false =>
    cases Relation.firstRepeated? [] s.relations with
    | none => exact iff_of_true rfl ⟨rfl, rfl⟩
    | some property => exact iff_of_false (fun h => nomatch h) fun h => nomatch h.2

/-- In a valid schema no two declarations have the same property. -/
theorem property_injective {s : Schema} (h : s.validate = .ok ()) :
    Function.Injective fun id : RelationId s.relations => (s.relations.get id).property :=
  Relation.property_injective_of_nodup (validate_eq_ok_iff.1 h).2

end Schema

theorem Scope.ofTag_eq_relation_iff {relations : List Relation}
    (h : (relations.map (·.property)).Nodup) {tag : Option String} {id : RelationId relations} :
    ofTag relations tag = .relation id ↔ tag = some (relations.get id).property := by
  constructor
  · intro hscope
    cases tag with
    | none => cases hscope
    | some name =>
      cases hresolved : Relation.resolve? relations name with
      | none => simp [ofTag, hresolved] at hscope
      | some other =>
        simp only [ofTag, hresolved, relation.injEq] at hscope
        exact congrArg some (hscope ▸ (Relation.property_of_resolve? hresolved).symm)
  · rintro rfl
    simp only [ofTag, Relation.resolve?_property h id]

end FederatedJoin
