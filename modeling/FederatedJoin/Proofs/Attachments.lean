-- SUMMARY: What hydration attaches to a root: the rows with its key that the request admits, each content once.
import FederatedJoin.Proofs.Chains
import FederatedJoin.Proofs.Tags
import FederatedJoin.Proofs.Writes
import Mathlib.Data.List.Forall2

/-!
# Attachments

All roots of a page are hydrated together, with one fetch for each relation, and
the relations are attached one after the other. A relation whose keys another
one has overwritten by then gets its empty value. Apart from that the outcome is
that of every root and every relation by itself: the property holds the rows with
the root's key that satisfy the request's own conditions on the relation, each
content once and in the order in which they are stored. Disjunctive conditions
admit every row with the key.
-/

namespace FederatedJoin

/-! ## Contents without repetitions -/

open FirstOccurrence

namespace Record

/-- Of rows with the same content only the first stays. -/
def distinct (rows : List Record) : List Record :=
  rows.eraseDupsBy fun a b => a.fingerprint == b.fingerprint

theorem mem_of_mem_distinct {rows : List Record} {row : Record} (h : row ∈ distinct rows) :
    row ∈ rows := (eraseDupsBy_sublist _ _).mem h

/-- Every content is left. -/
theorem exists_fingerprint_eq_of_mem {rows : List Record} {row : Record} (h : row ∈ rows) :
    ∃ shown ∈ distinct rows, shown.fingerprint = row.fingerprint := by
  obtain ⟨shown, hshown, hsame⟩ := exists_mem_eraseDupsBy
    (fun a b : Record => a.fingerprint == b.fingerprint) (fun _ => beq_self_eq_true _) h
  exact ⟨shown, hshown, (beq_iff_eq.1 hsame).symm⟩

theorem nodup_distinct (rows : List Record) : ((distinct rows).map (·.fingerprint)).Nodup := by
  rw [distinct, ← map_eraseDupsBy]
  exact nodup_eraseDups _

end Record

namespace RelatedRows

/-- The group of a key holds the rows that have it, each content once. -/
theorem group_ofRecords (relation : Relation) (rows : List Record) (key : JoinKey) :
    (ofRecords relation rows).group key =
      Record.distinct (rows.filter (·.joinKey? relation.relationKeyField = some key)) := by
  have hkeyed : ((rows.filterMap (RelatedRow.ofRecord? relation)).filter (·.key = key)) =
      (rows.filter (·.joinKey? relation.relationKeyField = some key)).map
        fun row => ⟨key, row.fingerprint, row⟩ := by
    induction rows with
    | nil => rfl
    | cons row rest ih =>
      cases hrow : row.joinKey? relation.relationKeyField with
      | none => simpa [RelatedRow.ofRecord?, hrow] using ih
      | some other =>
        by_cases hother : other = key
        · simpa [RelatedRow.ofRecord?, hrow, hother] using ih
        · simpa [RelatedRow.ofRecord?, hrow, hother] using ih
  have hsame : ∀ a b : RelatedRow, a.duplicates b = true →
      decide (a.key = key) = decide (b.key = key) := by
    intro a b h
    simp only [RelatedRow.duplicates, Bool.and_eq_true, beq_iff_eq] at h
    rw [h.1]
  rw [group, ofRecords, filter_eraseDupsBy hsame, hkeyed, map_eraseDupsBy, List.map_map]
  simp [RelatedRow.duplicates, Record.distinct, Function.comp_def]

end RelatedRows

/-! ## Overwritten keys -/

namespace Hydration

section Order

variable {relations : List Relation}

/-- No relation is attached under the field that tells the keys of another. -/
def Separate (ids : List (RelationId relations)) : Prop :=
  ∀ a ∈ ids, ∀ b ∈ ids, a ≠ b → (relations.get a).property ≠ (relations.get b).rootKeyField

theorem separate_singleton (id : RelationId relations) : Separate [id] := by
  intro a ha b hb hne
  obtain rfl := List.mem_singleton.1 ha
  exact absurd (List.mem_singleton.1 hb).symm hne

/-- Another relation is attached under the field that tells the keys, and its turn is earlier:
it is emptied, or it is declared first. -/
def Overwritten (ids : List (RelationId relations)) (roots : List Record)
    (id : RelationId relations) : Prop :=
  ∃ other ∈ ids, other ≠ id ∧ (relations.get other).property = (relations.get id).rootKeyField ∧
    (other ∈ emptiedIds ids roots ∨ other < id)

instance (ids : List (RelationId relations)) (roots : List Record) (id : RelationId relations) :
    Decidable (Overwritten ids roots id) :=
  inferInstanceAs (Decidable (∃ other ∈ ids, _ ∧ _ ∧ _))

theorem not_overwritten_of_separate {ids : List (RelationId relations)} (h : Separate ids)
    {id : RelationId relations} (hid : id ∈ ids) (roots : List Record) :
    ¬ Overwritten ids roots id := by
  rintro ⟨other, hother, hne, hhides, -⟩
  exact h other hother id hid hne hhides

theorem overwritten_perm {ids : List (RelationId relations)} {roots others : List Record}
    (h : roots.Perm others) (id : RelationId relations) :
    Overwritten ids roots id ↔ Overwritten ids others id := by
  unfold Overwritten
  rw [emptiedIds_perm ids h]

/-- In front of a fetched relation are the emptied ones and those declared before it. -/
theorem mem_front_iff {ids : List (RelationId relations)} (hids : ids.Pairwise (· < ·))
    {roots : List Record} {front back : List (RelationId relations)} {id : RelationId relations}
    (hsplit : emptiedIds ids roots ++ fetchedIds ids roots = front ++ id :: back)
    (hid : id ∈ fetchedIds ids roots) {other : RelationId relations} :
    other ∈ front ↔ other ∈ ids ∧ other ≠ id ∧ (other ∈ emptiedIds ids roots ∨ other < id) := by
  have hperm := emptied_append_fetched_perm ids roots
  have hnodup := hperm.nodup_iff.2 (hids.imp Fin.ne_of_lt)
  have hfetched : ∀ a ∈ fetchedIds ids roots, a ∉ emptiedIds ids roots := fun a ha hempty =>
    (List.nodup_append'.1 hnodup).2.2 hempty ha
  have horder : (emptiedIds ids roots ++ fetchedIds ids roots).Pairwise fun a b =>
      a ∈ emptiedIds ids roots ∨ b ∉ emptiedIds ids roots ∧ a < b := by
    refine List.pairwise_append.2 ⟨?_, ?_, fun a ha b _ => .inl ha⟩
    · exact List.pairwise_of_forall_mem_list fun a ha b _ => .inl ha
    · have hlt := hids.sublist (fetchedIds_sublist ids roots)
      exact hlt.imp_of_mem fun _ hb hab => .inr ⟨hfetched _ hb, hab⟩
  have hmem : other ∈ ids ↔ other ∈ front ++ id :: back := by
    rw [← hsplit]
    exact hperm.mem_iff.symm
  rw [hsplit] at horder hnodup
  obtain ⟨-, hback, hfront⟩ := List.pairwise_append.1 horder
  constructor
  · intro hother
    refine ⟨hmem.2 (List.mem_append_left _ hother), ?_, ?_⟩
    · rintro rfl
      exact (List.nodup_append'.1 hnodup).2.2 hother List.mem_cons_self
    · exact (hfront other hother id List.mem_cons_self).imp_right And.right
  · rintro ⟨hother, hne, hearlier⟩
    rcases List.mem_append.1 (hmem.1 hother) with hother | hother
    · exact hother
    · have hafter := List.rel_of_pairwise_cons hback
        ((List.mem_cons.1 hother).resolve_left hne)
      rcases hafter with hempty | ⟨hkeyed, hlt⟩
      · exact absurd hempty (hfetched id hid)
      · rcases hearlier with hempty | hless
        · exact absurd hempty hkeyed
        · exact absurd hless (Fin.lt_asymm hlt)

end Order

end Hydration

/-! ## What is attached to a root -/

namespace Federation

open Hydration

variable {f : Federation Collection} {plan : Plan f.schema.relations} {r : Request}

/-- The relation's rows with the root's key; none for a root without one. -/
def keyedRows (f : Federation Collection) (id : RelationId f.schema.relations) (root : Record) :
    List Record :=
  match root.joinKey? (f.schema.relations.get id).rootKeyField with
  | none => []
  | some key => f.rowsOf id key

/-- The rows with the root's key that the request admits, each content once. -/
def relatedRows (f : Federation Collection) (r : Request) (id : RelationId f.schema.relations)
    (root : Record) : List Record :=
  Record.distinct ((f.keyedRows id root).filter fun row =>
    (r.about id).isDisjunctive || (r.about id).searchTree.holds row)

/-- The record is the root with the related rows of every hydrated relation. -/
structure Shows (f : Federation Collection) (r : Request) (plan : Plan f.schema.relations)
    (root record : Record) : Prop where
  outside_eq : record.outside plan.attached = root.outside plan.attached
  get?_property : ∀ id ∈ plan.hydrated, record.get? (f.schema.relations.get id).property =
    some ((f.schema.relations.get id).attachment (f.relatedRows r id root))

/-- The value of a relation's property on one of the roots. -/
def attachedValue (f : Federation Collection) (r : Request) (plan : Plan f.schema.relations)
    (roots : List Record) (id : RelationId f.schema.relations) (root : Record) : Json :=
  if Overwritten plan.hydrated roots id then (f.schema.relations.get id).emptyValue
  else (f.schema.relations.get id).attachment (f.relatedRows r id root)

/-- One of the roots with all relations of the plan attached. -/
def joinedRecord (f : Federation Collection) (r : Request) (plan : Plan f.schema.relations)
    (roots : List Record) (root : Record) : Record :=
  root.setAll (plan.hydrated.map fun id =>
    ((f.schema.relations.get id).property, f.attachedValue r plan roots id root))

/-- The rows that are fetched for a relation. -/
def fetchedRows (f : Federation Collection) (plan : Plan f.schema.relations) (roots : List Record)
    (id : RelationId f.schema.relations) : List Record :=
  ((f.provider (.relation id)).getMany (requestFor plan.routing roots id)).data

/-- Which of the rows fetched for all roots belong to one of them does not depend on the others. -/
theorem related_fetchedRows (hfit : f.FitsWords) {limits : Limits} (hmade : plan.MadeFor limits r)
    {roots : List Record} {root : Record} (hroot : root ∈ roots)
    (id : RelationId f.schema.relations) :
    (f.schema.relations.get id).related
        (.ofRecords (f.schema.relations.get id) (f.fetchedRows plan roots id)) root =
      f.relatedRows r id root := by
  unfold Relation.related relatedRows keyedRows
  cases hkey : root.joinKey? (f.schema.relations.get id).rootKeyField with
  | none => rfl
  | some key =>
    have hmem : key ∈ Record.joinKeys roots (f.schema.relations.get id).rootKeyField :=
      Record.mem_joinKeys.2 ⟨root, hroot, hkey⟩
    have hrows : f.fetchedRows plan roots id = (f.provider (.relation id)).rows.filter
        ((requestFor plan.routing roots id).searchTree.holds ·) :=
      Collection.data_getMany_eq_filter (hfit _) rfl rfl rfl
    simp only [RelatedRows.group_ofRecords, hrows]
    apply congrArg Record.distinct
    rw [List.filter_filter, rowsOf, List.filter_filter]
    apply List.filter_congr
    intro row _
    by_cases hrow : row.joinKey? (f.schema.relations.get id).relationKeyField = some key
    · have hholds := Routing.holds_hydrationRequest (r := r) hrow hmem
      rw [hmade.routing_eq] at hholds
      simp only [hrow, requestFor, hholds, decide_true, Bool.true_and, Bool.and_true]
    · simp only [hrow, decide_false, Bool.false_and, Bool.and_false]

/-- An emptied relation has no rows for any of the roots, unless its keys are overwritten. -/
theorem attachedValue_of_emptied (hids : plan.hydrated.Nodup) {roots : List Record}
    {id : RelationId f.schema.relations} (hid : id ∈ emptiedIds plan.hydrated roots)
    {root : Record} (hroot : root ∈ roots) :
    f.attachedValue r plan roots id root = (f.schema.relations.get id).emptyValue := by
  unfold attachedValue
  split
  · rfl
  · next hnot =>
    rcases isKeyless_or_hidden_of_mem_emptiedIds hids hid with hkeyless | ⟨other, hother, hhides⟩
    · have hnone : root.joinKey? (f.schema.relations.get id).rootKeyField = none := by
        by_contra hsome
        obtain ⟨key, hkey⟩ := Option.ne_none_iff_exists'.1 hsome
        have hmem : key ∈ Record.joinKeys roots (f.schema.relations.get id).rootKeyField :=
          Record.mem_joinKeys.2 ⟨root, hroot, hkey⟩
        rw [List.isEmpty_iff.1 hkeyless] at hmem
        cases hmem
      have hrows : f.relatedRows r id root = [] := by
        simp only [relatedRows, keyedRows, hnone]
        rfl
      rw [hrows, Relation.attachment_nil]
    · exact absurd ⟨other, (emptiedIds_sublist _ roots).mem hother, hhides.1, hhides.2, .inl hother⟩
        hnot

/-- What hydration writes when the relations' rows come from the collections. -/
def writes (f : Federation Collection) (plan : Plan f.schema.relations) (roots : List Record) :
    List (RelationId f.schema.relations × List Record) :=
  writesFor plan.hydrated roots
    ((fetchedIds plan.hydrated roots).map fun id => (id, f.fetchedRows plan roots id))

theorem map_fst_writes (f : Federation Collection) (plan : Plan f.schema.relations)
    (roots : List Record) : (f.writes plan roots).map (·.1) =
      emptiedIds plan.hydrated roots ++ fetchedIds plan.hydrated roots := by
  rw [writes, writesFor, List.map_append, List.map_map, List.map_map]
  exact congrArg₂ _ (List.map_id' _) (List.map_id' _)

theorem hydrated_eq_map_writes (plan : Plan f.schema.relations) (roots : List Record) :
    hydrated f plan roots = roots.map (attachAllTo (f.writes plan roots)) := by
  have hrows : fetched f (prepare plan.routing plan.hydrated roots).2 =
      (fetchedIds plan.hydrated roots).map fun id => (id, f.fetchedRows plan roots id) := by
    rw [prepare_eq, fetched, List.map_map]
    rfl
  rw [hydrated, hrows, attachAll_prepare]
  rfl

/-- Every relation finds its keys overwritten or its related rows. -/
theorem valueAfter_of_writes (hfit : f.FitsWords) {limits : Limits} (hmade : plan.MadeFor limits r)
    {roots : List Record} {front back : List (RelationId f.schema.relations × List Record)}
    {p : RelationId f.schema.relations × List Record}
    (hsplit : f.writes plan roots = front ++ p :: back) {root : Record} (hroot : root ∈ roots) :
    valueAfter front p.1 p.2 root = f.attachedValue r plan roots p.1 root := by
  have hp : p ∈ f.writes plan roots := by simp [hsplit]
  rcases List.mem_append.1 hp with hempty | hfetched
  · obtain ⟨id, hid, rfl⟩ := List.mem_map.1 hempty
    rw [valueAfter_nil, attachedValue_of_emptied hmade.nodup_hydrated hid hroot]
  · obtain ⟨id, hid, rfl⟩ := List.mem_map.1 hfetched
    have hids : emptiedIds plan.hydrated roots ++ fetchedIds plan.hydrated roots =
        front.map (·.1) ++ id :: back.map (·.1) := by
      rw [← map_fst_writes, hsplit, List.map_append, List.map_cons]
    have hoverwritten : Writes front (f.schema.relations.get id).rootKeyField ↔
        Overwritten plan.hydrated roots id := by
      constructor
      · rintro ⟨q, hq, hhides⟩
        obtain ⟨hother, hne, hearlier⟩ :=
          (mem_front_iff hmade.pairwise_hydrated hids hid).1 (List.mem_map_of_mem hq)
        exact ⟨q.1, hother, hne, hhides, hearlier⟩
      · rintro ⟨other, hother, hne, hhides, hearlier⟩
        obtain ⟨q, hq, rfl⟩ := List.mem_map.1
          ((mem_front_iff hmade.pairwise_hydrated hids hid).2 ⟨hother, hne, hearlier⟩)
        exact ⟨q, hq, hhides⟩
    unfold valueAfter attachedValue
    rw [related_fetchedRows hfit hmade hroot]
    exact if_congr hoverwritten rfl rfl

/-- Hydration sets the properties of every root to their values. -/
theorem hydrated_eq_map (hfit : f.FitsWords) (hvalid : f.schema.validate = .ok ())
    {limits : Limits} (hmade : plan.MadeFor limits r) (roots : List Record) :
    hydrated f plan roots = roots.map (f.joinedRecord r plan roots) := by
  have hperm : ((f.writes plan roots).map (·.1)).Perm plan.hydrated := by
    rw [map_fst_writes]
    exact emptied_append_fetched_perm _ roots
  have hnames : (plan.hydrated.map fun id => (f.schema.relations.get id).property).Nodup :=
    hmade.nodup_hydrated.map (Schema.property_injective hvalid)
  rw [hydrated_eq_map_writes]
  apply List.map_congr_left
  intro root hroot
  have hset : attachAllTo (f.writes plan roots) root = root.setAll
      (((f.writes plan roots).map (·.1)).map fun id =>
        ((f.schema.relations.get id).property, f.attachedValue r plan roots id root)) :=
    attachAllTo_eq_setAll fun front p back hsplit => valueAfter_of_writes hfit hmade hsplit hroot
  rw [hset]
  refine Record.setAll_perm ?_ (hperm.map _) root
  rw [List.map_map]
  exact (hperm.map _).nodup_iff.2 hnames

/-! ## Records -/

theorem outside_joinedRecord (plan : Plan f.schema.relations) (roots : List Record)
    (root : Record) :
    (f.joinedRecord r plan roots root).outside plan.attached = root.outside plan.attached := by
  apply Record.outside_setAll
  intro p hp
  obtain ⟨id, hid, rfl⟩ := List.mem_map.1 hp
  exact List.mem_map_of_mem hid

theorem get?_joinedRecord (hvalid : f.schema.validate = .ok ()) {limits : Limits}
    (hmade : plan.MadeFor limits r) (roots : List Record) (root : Record)
    {id : RelationId f.schema.relations} (hid : id ∈ plan.hydrated) :
    (f.joinedRecord r plan roots root).get? (f.schema.relations.get id).property =
      some (f.attachedValue r plan roots id root) := by
  have hnames : ((plan.hydrated.map fun id => ((f.schema.relations.get id).property,
      f.attachedValue r plan roots id root)).map (·.1)).Nodup := by
    rw [List.map_map]
    exact hmade.nodup_hydrated.map (Schema.property_injective hvalid)
  exact Record.get?_setAll_of_mem hnames (List.mem_map.2 ⟨id, hid, rfl⟩) root

theorem attachedValue_of_separate (hseparate : Separate plan.hydrated)
    {id : RelationId f.schema.relations} (hid : id ∈ plan.hydrated) (roots : List Record)
    (root : Record) : f.attachedValue r plan roots id root =
      (f.schema.relations.get id).attachment (f.relatedRows r id root) :=
  if_neg (not_overwritten_of_separate hseparate hid roots)

/-- Hydration shows every root, in its place, with its related rows. -/
theorem forall₂_shows_hydrated (hfit : f.FitsWords) (hvalid : f.schema.validate = .ok ())
    {r : Request} {limits : Limits} (hmade : plan.MadeFor limits r)
    (hseparate : Separate plan.hydrated) (roots : List Record) :
    List.Forall₂ (f.Shows r plan) roots (hydrated f plan roots) := by
  rw [hydrated_eq_map hfit hvalid hmade, List.forall₂_map_right_iff, List.forall₂_same]
  intro root hroot
  refine ⟨outside_joinedRecord plan roots root, fun id hid => ?_⟩
  rw [get?_joinedRecord hvalid hmade roots root hid, attachedValue_of_separate hseparate hid]

end Federation

end FederatedJoin
