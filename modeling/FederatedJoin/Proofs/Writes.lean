-- SUMMARY: Hydration as writes: which value each relation puts under its property, and what the writes before it hide.
import FederatedJoin.Proofs.Answers
import FederatedJoin.Proofs.Calls
import Mathlib.Data.List.Induction
import Mathlib.Data.List.Nodup

/-!
# Writes

Hydration puts one value under the property of each relation. The relations for
which no root has a key come first, with an empty value; the fetched ones follow.
A write hides a key when its property is the field that holds it, for no attached
value is a join key. Apart from that the writes do not meet: each relation's value
is read off the root as it came, and in which order the values are written is of
no account. None of this depends on what the relations' providers answer.
-/

namespace FederatedJoin

/-! ## Several fields at once -/

namespace Record

/-- The fields set one after the other. -/
def setAll (r : Record) (values : List (String × Json)) : Record :=
  values.foldl (fun r p => r.set p.1 p.2) r

theorem setAll_append (r : Record) (front back : List (String × Json)) :
    r.setAll (front ++ back) = (r.setAll front).setAll back := List.foldl_append ..

theorem get?_setAll_of_notMem {field : String} {values : List (String × Json)}
    (h : field ∉ values.map (·.1)) (r : Record) : (r.setAll values).get? field = r.get? field := by
  induction values generalizing r with
  | nil => rfl
  | cons p rest ih =>
    rw [List.map_cons, List.mem_cons, not_or] at h
    exact (ih h.2 _).trans (get?_set_of_ne (Ne.symm h.1) r p.2)

theorem get?_setAll_of_mem {values : List (String × Json)} (hnames : (values.map (·.1)).Nodup)
    {p : String × Json} (hp : p ∈ values) (r : Record) :
    (r.setAll values).get? p.1 = some p.2 := by
  induction values generalizing r with
  | nil => cases hp
  | cons first rest ih =>
    obtain ⟨hfirst, hrest⟩ := List.nodup_cons.1 hnames
    rcases List.mem_cons.1 hp with rfl | hp
    · exact (get?_setAll_of_notMem hfirst _).trans (get?_set_self r p.1 p.2)
    · exact ih hrest hp _

theorem outside_setAll {properties : List String} {values : List (String × Json)}
    (h : ∀ p ∈ values, p.1 ∈ properties) (r : Record) :
    (r.setAll values).outside properties = r.outside properties := by
  induction values generalizing r with
  | nil => rfl
  | cons p rest ih =>
    obtain ⟨hp, hrest⟩ := List.forall_mem_cons.1 h
    exact (ih hrest _).trans (outside_set hp r p.2)

/-- Distinct fields may be set in any order. -/
theorem setAll_perm {values others : List (String × Json)} (hnames : (values.map (·.1)).Nodup)
    (h : values.Perm others) (r : Record) : r.setAll values = r.setAll others := by
  apply h.foldl_eq'
  intro p hp q hq r
  by_cases hsame : p = q
  · rw [hsame]
  · have hne : q.1 ≠ p.1 := fun heq => hsame (List.inj_on_of_nodup_map hnames hp hq heq.symm)
    exact set_comm hne r q.2 p.2

end Record

/-! ## One relation -/

namespace Relation

/-- One root with the relation attached. -/
def attachTo (relation : Relation) (rows : List Record) (root : Record) : Record :=
  root.set relation.property
    (relation.attachment (relation.related (.ofRecords relation rows) root))

theorem attach_eq_map (relation : Relation) (rows roots : List Record) :
    relation.attach (.ofRecords relation rows) roots = roots.map (relation.attachTo rows) := rfl

theorem related_ofRecords_nil (relation : Relation) (root : Record) :
    relation.related (.ofRecords relation []) root = [] := by
  unfold related
  split <;> rfl

theorem attachEmpty_eq_map (relation : Relation) (roots : List Record) :
    relation.attachEmpty roots = roots.map (relation.attachTo []) := by
  apply List.map_congr_left
  intro root _
  rw [attachTo, related_ofRecords_nil, attachment_nil]

/-- What is attached is no join key. -/
theorem ofJson?_attachment (relation : Relation) (rows : List Record) :
    JoinKey.ofJson? (relation.attachment rows) = none := by
  unfold attachment
  split <;> rfl

/-- Attaching a relation takes away the key under its property and leaves every other. -/
theorem joinKey?_attachTo (relation : Relation) (rows : List Record) (root : Record)
    (field : String) : (relation.attachTo rows root).joinKey? field =
      if relation.property = field then none else root.joinKey? field := by
  split
  · next h =>
    rw [← h, attachTo, Record.joinKey?, Record.get?_set_self]
    exact relation.ofJson?_attachment _
  · next h => exact Record.joinKey?_set_of_ne h ..

theorem joinKeys_map_attachTo (relation : Relation) (rows roots : List Record) (field : String) :
    Record.joinKeys (roots.map (relation.attachTo rows)) field =
      if relation.property = field then [] else Record.joinKeys roots field := by
  simp only [Record.joinKeys, List.filterMap_map, Function.comp_def, joinKey?_attachTo]
  split
  · simp
  · rfl

end Relation

namespace Hydration

variable {relations : List Relation}

/-! ## One relation after the other -/

/-- One root after the rows of all these relations were attached. -/
def attachAllTo (writes : List (RelationId relations × List Record)) (root : Record) : Record :=
  writes.foldl (fun root p => (relations.get p.1).attachTo p.2 root) root

theorem attachAllTo_cons (p : RelationId relations × List Record)
    (rest : List (RelationId relations × List Record)) (root : Record) :
    attachAllTo (p :: rest) root =
      attachAllTo rest ((relations.get p.1).attachTo p.2 root) := rfl

theorem attachAllTo_append (front back : List (RelationId relations × List Record))
    (root : Record) : attachAllTo (front ++ back) root = attachAllTo back (attachAllTo front root) :=
  List.foldl_append ..

theorem attachAll_eq_map (writes : List (RelationId relations × List Record))
    (roots : List Record) : attachAll writes roots = roots.map (attachAllTo writes) := by
  induction writes generalizing roots with
  | nil => exact (List.map_id' roots).symm
  | cons p rest ih =>
    have hrest := ih ((relations.get p.1).attach (.ofRecords (relations.get p.1) p.2) roots)
    rw [Relation.attach_eq_map, List.map_map] at hrest
    exact hrest

/-- Whether one of the writes goes to the field. -/
def Writes (writes : List (RelationId relations × List Record)) (field : String) : Prop :=
  ∃ p ∈ writes, (relations.get p.1).property = field

instance (writes : List (RelationId relations × List Record)) (field : String) :
    Decidable (Writes writes field) :=
  inferInstanceAs (Decidable (∃ p ∈ writes, (relations.get p.1).property = field))

theorem get?_attachAllTo_of_not_writes {field : String}
    {writes : List (RelationId relations × List Record)} (h : ¬ Writes writes field)
    (root : Record) : (attachAllTo writes root).get? field = root.get? field := by
  induction writes generalizing root with
  | nil => rfl
  | cons p rest ih =>
    have hp : (relations.get p.1).property ≠ field := fun heq => h ⟨p, List.mem_cons_self, heq⟩
    have hrest : ¬ Writes rest field := fun ⟨q, hq, heq⟩ => h ⟨q, List.mem_cons_of_mem p hq, heq⟩
    exact (ih hrest _).trans (Record.get?_set_of_ne hp ..)

theorem joinKey?_attachAllTo (writes : List (RelationId relations × List Record)) (root : Record)
    (field : String) : (attachAllTo writes root).joinKey? field =
      if Writes writes field then none else root.joinKey? field := by
  induction writes generalizing root with
  | nil => exact (if_neg fun ⟨_, hp, _⟩ => nomatch hp).symm
  | cons p rest ih =>
    have hwrites : Writes (p :: rest) field ↔
        (relations.get p.1).property = field ∨ Writes rest field :=
      List.exists_mem_cons_iff ..
    rw [attachAllTo_cons, ih, Relation.joinKey?_attachTo]
    by_cases hrest : Writes rest field
    · rw [if_pos hrest, if_pos (hwrites.2 (.inr hrest))]
    · simp only [hwrites, hrest, or_false, if_false]

/-! ## Values -/

/-- The value that a relation's property gets when the other writes come first. -/
def valueAfter (front : List (RelationId relations × List Record)) (id : RelationId relations)
    (rows : List Record) (root : Record) : Json :=
  if Writes front (relations.get id).rootKeyField then (relations.get id).emptyValue
  else (relations.get id).attachment
    ((relations.get id).related (.ofRecords (relations.get id) rows) root)

theorem valueAfter_nil (front : List (RelationId relations × List Record))
    (id : RelationId relations) (root : Record) :
    valueAfter front id [] root = (relations.get id).emptyValue := by
  unfold valueAfter
  rw [Relation.related_ofRecords_nil, Relation.attachment_nil, ite_self]

theorem attachTo_attachAllTo (front : List (RelationId relations × List Record))
    (p : RelationId relations × List Record) (root : Record) :
    (relations.get p.1).attachTo p.2 (attachAllTo front root) =
      (attachAllTo front root).set (relations.get p.1).property
        (valueAfter front p.1 p.2 root) := by
  unfold Relation.attachTo valueAfter Relation.related
  rw [joinKey?_attachAllTo]
  by_cases h : Writes front (relations.get p.1).rootKeyField
  · rw [if_pos h, if_pos h]
    exact congrArg _ (Relation.attachment_nil _)
  · rw [if_neg h, if_neg h]

/-- A property that is not written again holds the value it got in its turn. -/
theorem get?_attachAllTo {front back : List (RelationId relations × List Record)}
    {p : RelationId relations × List Record}
    (hback : ¬ Writes back (relations.get p.1).property) (root : Record) :
    (attachAllTo (front ++ p :: back) root).get? (relations.get p.1).property =
      some (valueAfter front p.1 p.2 root) := by
  rw [attachAllTo_append, attachAllTo_cons, attachTo_attachAllTo,
    get?_attachAllTo_of_not_writes hback]
  exact Record.get?_set_self ..

/-- Attaching the relations in turn sets their properties to values that can be told beforehand. -/
theorem attachAllTo_eq_setAll {writes : List (RelationId relations × List Record)} {root : Record}
    {value : RelationId relations → Json}
    (h : ∀ front p back, writes = front ++ p :: back →
      valueAfter front p.1 p.2 root = value p.1) :
    attachAllTo writes root = root.setAll
      ((writes.map (·.1)).map fun id => ((relations.get id).property, value id)) := by
  induction writes using List.reverseRecOn with
  | nil => rfl
  | append_singleton front p ih =>
    have hfront := ih fun as q bs hsplit => h as q (bs ++ [p]) (by simp [hsplit])
    rw [attachAllTo_append, List.map_append, List.map_append, Record.setAll_append, ← hfront,
      attachAllTo_cons, attachTo_attachAllTo, h front p [] rfl]
    rfl

/-! ## Emptied and fetched relations -/

/-- Whether no root has a key for the relation. -/
def isKeyless (roots : List Record) (id : RelationId relations) : Bool :=
  (Record.joinKeys roots (relations.get id).rootKeyField).isEmpty

/-- The relations that no root has a key for when their turn comes. -/
def emptiedIds : List (RelationId relations) → List Record → List (RelationId relations)
  | [], _ => []
  | id :: rest, roots =>
    if isKeyless roots id then id :: emptiedIds rest (roots.map ((relations.get id).attachTo []))
    else emptiedIds rest roots

/-- The other relations. -/
def fetchedIds : List (RelationId relations) → List Record → List (RelationId relations)
  | [], _ => []
  | id :: rest, roots =>
    if isKeyless roots id then fetchedIds rest (roots.map ((relations.get id).attachTo []))
    else id :: fetchedIds rest roots

/-- The relation's request for the keys of the roots. -/
def requestFor (routing : Routing relations) (roots : List Record) (id : RelationId relations) :
    Request :=
  (routing.hydrationRequest id).constrainKeys (relations.get id).relationKeyField
    (Record.joinKeys roots (relations.get id).rootKeyField)

theorem isKeyless_map_attachTo (first id : RelationId relations) (rows roots : List Record) :
    isKeyless (roots.map ((relations.get first).attachTo rows)) id =
      (decide ((relations.get first).property = (relations.get id).rootKeyField) ||
        isKeyless roots id) := by
  unfold isKeyless
  rw [Relation.joinKeys_map_attachTo]
  split
  · next h => rw [decide_eq_true h, Bool.true_or, List.isEmpty_nil]
  · next h => rw [decide_eq_false h, Bool.false_or]

theorem emptied_append_fetched_perm (ids : List (RelationId relations)) (roots : List Record) :
    (emptiedIds ids roots ++ fetchedIds ids roots).Perm ids := by
  induction ids generalizing roots with
  | nil => exact List.Perm.nil
  | cons id rest ih =>
    unfold emptiedIds fetchedIds
    split
    · exact (ih _).cons id
    · exact List.perm_middle.trans ((ih roots).cons id)

theorem emptiedIds_sublist (ids : List (RelationId relations)) (roots : List Record) :
    (emptiedIds ids roots).Sublist ids := by
  induction ids generalizing roots with
  | nil => exact List.Sublist.refl _
  | cons id rest ih =>
    unfold emptiedIds
    split
    · exact (ih _).cons_cons id
    · exact (ih roots).cons id

theorem fetchedIds_sublist (ids : List (RelationId relations)) (roots : List Record) :
    (fetchedIds ids roots).Sublist ids := by
  induction ids generalizing roots with
  | nil => exact List.Sublist.refl _
  | cons id rest ih =>
    unfold fetchedIds
    split
    · exact (ih _).cons id
    · exact (ih roots).cons_cons id

/-- A relation is emptied when no root has a key for it, or when an emptied one hides the keys. -/
theorem isKeyless_or_hidden_of_mem_emptiedIds {ids : List (RelationId relations)}
    (hids : ids.Nodup) {roots : List Record} {id : RelationId relations}
    (h : id ∈ emptiedIds ids roots) : isKeyless roots id = true ∨
      ∃ other ∈ emptiedIds ids roots, other ≠ id ∧
        (relations.get other).property = (relations.get id).rootKeyField := by
  induction ids generalizing roots with
  | nil => cases h
  | cons first rest ih =>
    obtain ⟨hfirst, hrest⟩ := List.nodup_cons.1 hids
    unfold emptiedIds at h ⊢
    split at h
    · next hkeyless =>
      rw [if_pos hkeyless]
      rcases List.mem_cons.1 h with rfl | h
      · exact .inl hkeyless
      · rcases ih hrest h with hkeys | ⟨other, hother, hne, hhides⟩
        · rw [isKeyless_map_attachTo, Bool.or_eq_true, decide_eq_true_eq] at hkeys
          rcases hkeys with hhides | hkeys
          · have hne : first ≠ id := by
              rintro rfl
              exact hfirst ((emptiedIds_sublist rest _).mem h)
            exact .inr ⟨first, List.mem_cons_self, hne, hhides⟩
          · exact .inl hkeys
        · exact .inr ⟨other, List.mem_cons_of_mem first hother, hne, hhides⟩
    · next hkeyed =>
      rw [if_neg hkeyed]
      exact ih hrest h

/-- The keys of a fetched relation are those that the roots came with. -/
theorem isKeyless_eq_false_of_mem_fetchedIds {ids : List (RelationId relations)}
    {roots : List Record} {id : RelationId relations} (h : id ∈ fetchedIds ids roots) :
    isKeyless roots id = false := by
  induction ids generalizing roots with
  | nil => cases h
  | cons first rest ih =>
    unfold fetchedIds at h
    split at h
    · have hkeyed := ih h
      rw [isKeyless_map_attachTo, Bool.or_eq_false_iff] at hkeyed
      exact hkeyed.2
    · next hkeyed =>
      rcases List.mem_cons.1 h with rfl | h
      · exact Bool.eq_false_iff.2 hkeyed
      · exact ih h

/-- Which relations are emptied does not depend on the order of the roots. -/
theorem emptiedIds_perm (ids : List (RelationId relations)) {roots others : List Record}
    (h : roots.Perm others) : emptiedIds ids roots = emptiedIds ids others := by
  induction ids generalizing roots others with
  | nil => rfl
  | cons id rest ih =>
    have hsame : isKeyless roots id = isKeyless others id := by
      rw [Bool.eq_iff_iff]
      unfold isKeyless
      simp only [List.isEmpty_iff, List.eq_nil_iff_forall_not_mem, Record.mem_joinKeys, h.mem_iff]
    unfold emptiedIds
    rw [hsame, ih (h.map _), ih h]

theorem prepare_cons_of_keyless {roots : List Record} {id : RelationId relations}
    (h : isKeyless roots id = true) (routing : Routing relations)
    (rest : List (RelationId relations)) :
    prepare routing (id :: rest) roots =
      prepare routing rest (roots.map ((relations.get id).attachTo [])) := by
  have hkeys := List.isEmpty_iff.1 h
  simp only [prepare, hkeys, Relation.attachEmpty_eq_map]

theorem prepare_cons_of_keyed {roots : List Record} {id : RelationId relations}
    (h : isKeyless roots id = false) (routing : Routing relations)
    (rest : List (RelationId relations)) :
    prepare routing (id :: rest) roots = ((prepare routing rest roots).1,
      ⟨id, requestFor routing roots id⟩ :: (prepare routing rest roots).2) := by
  unfold isKeyless at h
  unfold requestFor
  cases hkeys : Record.joinKeys roots (relations.get id).rootKeyField with
  | nil =>
    rw [hkeys] at h
    cases h
  | cons key keys => simp only [prepare, hkeys]

/-- The emptied relations are written, and the others ask for the keys of the roots as they came. -/
theorem prepare_eq (routing : Routing relations) (ids : List (RelationId relations))
    (roots : List Record) : prepare routing ids roots =
      (roots.map (attachAllTo ((emptiedIds ids roots).map (·, []))),
        (fetchedIds ids roots).map fun id => ⟨id, requestFor routing roots id⟩) := by
  induction ids generalizing roots with
  | nil => exact Prod.ext (List.map_id' roots).symm rfl
  | cons id rest ih =>
    unfold emptiedIds fetchedIds
    cases hkeyless : isKeyless roots id with
    | true =>
      rw [prepare_cons_of_keyless hkeyless, ih, if_pos rfl, if_pos rfl, List.map_map]
      refine Prod.ext rfl (List.map_congr_left fun other hother => ?_)
      -- what is fetched after an emptied relation is not hidden by it
      have hkeyed := isKeyless_eq_false_of_mem_fetchedIds hother
      rw [isKeyless_map_attachTo, Bool.or_eq_false_iff, decide_eq_false_iff_not] at hkeyed
      rw [requestFor, requestFor, Relation.joinKeys_map_attachTo, if_neg hkeyed.1]
    | false =>
      rw [prepare_cons_of_keyed hkeyless, ih]
      rfl

/-! ## Hydration as writes -/

/-- The writes of hydration when these rows are fetched. -/
def writesFor (ids : List (RelationId relations)) (roots : List Record)
    (fetched : List (RelationId relations × List Record)) :
    List (RelationId relations × List Record) :=
  (emptiedIds ids roots).map (·, []) ++ fetched

theorem attachAll_prepare (routing : Routing relations) (ids : List (RelationId relations))
    (roots : List Record) (fetched : List (RelationId relations × List Record)) :
    attachAll fetched (prepare routing ids roots).1 =
      roots.map (attachAllTo (writesFor ids roots fetched)) := by
  rw [prepare_eq, attachAll_eq_map, List.map_map]
  apply List.map_congr_left
  intro root _
  exact (attachAllTo_append ..).symm

theorem map_fst_writesFor_perm {ids : List (RelationId relations)} {roots : List Record}
    {fetched : List (RelationId relations × List Record)}
    (h : fetched.map (·.1) = fetchedIds ids roots) :
    ((writesFor ids roots fetched).map (·.1)).Perm ids := by
  have hempty : ((emptiedIds ids roots).map fun id => (id, ([] : List Record))).map (·.1) =
      emptiedIds ids roots := by
    rw [List.map_map]
    exact List.map_id' _
  rw [writesFor, List.map_append, hempty, h]
  exact emptied_append_fetched_perm ids roots

/-- Whatever the providers answer, every root gets one write for each hydrated relation. -/
theorem returns_hydrate (plan : Plan relations) (roots : List Record) :
    Fetch.Returns (hydrate plan roots) fun records =>
      ∃ writes : List (RelationId relations × List Record),
        (writes.map (·.1)).Perm plan.hydrated ∧ records = roots.map (attachAllTo writes) := by
  have hfetched : Fetch.Returns (fetchAll (prepare plan.routing plan.hydrated roots).2)
      fun fetched => fetched.map (·.1) = fetchedIds plan.hydrated roots := by
    intro b t fetched t' hrun
    have hids := (fetchAll_wp (b := b) (t := t) (prepare plan.routing plan.hydrated roots).2).2
      fetched (congrArg Prod.fst hrun)
    rw [hids, prepare_eq, List.map_map]
    exact List.map_id' _
  refine hfetched.bind fun fetched hids => Fetch.returns_pure ?_
  exact ⟨_, map_fst_writesFor_perm hids, attachAll_prepare plan.routing plan.hydrated roots fetched⟩

end Hydration

end FederatedJoin
