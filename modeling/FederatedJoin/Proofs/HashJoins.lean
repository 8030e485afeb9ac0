-- SUMMARY: Attaching grouped rows to roots is a nested-loop join that keeps the first row of each content.
import FederatedJoin.Proofs.Attachments

/-!
# Hash joins

The rows of a relation are grouped by their keys once, and every root then looks up
its own. What a root gets can be said without the groups, by a loop over the rows for
each root: a row matches if it has the root's key, and stays if no row before it has
the same key and content. Grouping is one row after the other: a row joins the group
of its key exactly when its content is new there, and touches no other group. The key
of a root is read before the property is set, which may be the field that holds it.
-/

namespace FederatedJoin

/-! ## Contents -/

namespace Record

theorem distinct_concat (rows : List Record) (row : Record) : distinct (rows ++ [row]) =
    distinct rows ++
      if ∀ before ∈ rows, before.fingerprint ≠ row.fingerprint then [row] else [] := by
  rw [distinct, FirstOccurrence.eraseDupsBy_append fun a b c hab hbc => ?trans]
  case trans =>
    rw [beq_iff_eq] at *
    exact hab.trans hbc
  congr 1
  have hnew : (rows.all fun before => !row.fingerprint == before.fingerprint) = true ↔
      ∀ before ∈ rows, before.fingerprint ≠ row.fingerprint := by
    simp only [List.all_eq_true, Bool.not_eq_true', beq_eq_false_iff_ne]
    exact forall₂_congr fun _ _ => ne_comm
  rw [List.filter_cons, List.filter_nil]
  simp only [hnew]
  split <;> rfl

end Record

/-! ## Nested loops -/

namespace Relation

/-- The row has the key, and no row before it has that key and the same content. -/
def IsFirst (relation : Relation) (before : List Record) (row : Record) (key : JoinKey) : Prop :=
  row.joinKey? relation.relationKeyField = some key ∧
    ∀ other ∈ before, other.joinKey? relation.relationKeyField = some key →
      other.fingerprint ≠ row.fingerprint

instance (relation : Relation) (before : List Record) (row : Record) (key : JoinKey) :
    Decidable (relation.IsFirst before row key) :=
  inferInstanceAs (Decidable (_ ∧ _))

/-- The rows with the key, in row order and of each content the first. -/
def firstMatches (relation : Relation) (rows : List Record) (key : JoinKey) : List Record :=
  (rows.zipIdx.filter fun p => relation.IsFirst (rows.take p.2) p.1 key).map (·.1)

theorem firstMatches_concat (relation : Relation) (rows : List Record) (row : Record)
    (key : JoinKey) : relation.firstMatches (rows ++ [row]) key =
      relation.firstMatches rows key ++ if relation.IsFirst rows row key then [row] else [] := by
  have hold : (rows.zipIdx.filter fun p => relation.IsFirst ((rows ++ [row]).take p.2) p.1 key) =
      rows.zipIdx.filter fun p => relation.IsFirst (rows.take p.2) p.1 key := by
    apply List.filter_congr
    intro p hp
    rw [List.take_append_of_le_length (Nat.le_of_lt (List.snd_lt_of_mem_zipIdx hp))]
  have hlast : (([row].zipIdx rows.length).filter fun p =>
      relation.IsFirst ((rows ++ [row]).take p.2) p.1 key) =
        if relation.IsFirst rows row key then [(row, rows.length)] else [] := by
    simp [List.filter_cons]
  rw [firstMatches, List.zipIdx_append, List.filter_append, List.map_append, hold, Nat.zero_add,
    hlast, firstMatches]
  congr 1
  split <;> rfl

end Relation

/-! ## Grouping -/

namespace RelatedRows

/-- One more row joins the group of its key if its content is new there. -/
theorem group_ofRecords_concat (relation : Relation) (rows : List Record) (row : Record)
    (key : JoinKey) : (ofRecords relation (rows ++ [row])).group key =
      (ofRecords relation rows).group key ++
        if relation.IsFirst rows row key then [row] else [] := by
  rw [group_ofRecords, group_ofRecords, List.filter_append, List.filter_cons, List.filter_nil]
  by_cases hkey : row.joinKey? relation.relationKeyField = some key
  · rw [if_pos (decide_eq_true hkey), Record.distinct_concat]
    congr 1
    simp [Relation.IsFirst, hkey]
  · rw [if_neg (by simpa using hkey), if_neg fun hfirst => hkey hfirst.1, List.append_nil,
      List.append_nil]

theorem group_ofRecords_eq_firstMatches (relation : Relation) (rows : List Record)
    (key : JoinKey) : (ofRecords relation rows).group key = relation.firstMatches rows key := by
  induction rows using List.reverseRecOn with
  | nil => rfl
  | append_singleton rows row ih => rw [group_ofRecords_concat, Relation.firstMatches_concat, ih]

theorem nodup_group (relation : Relation) (rows : List Record) (key : JoinKey) :
    (((ofRecords relation rows).group key).map (·.fingerprint)).Nodup := by
  rw [group_ofRecords]
  exact Record.nodup_distinct _

/-- No content that has the key is missing from its group. -/
theorem exists_mem_group {relation : Relation} {rows : List Record} {key : JoinKey} {row : Record}
    (hrow : row ∈ rows) (hkey : row.joinKey? relation.relationKeyField = some key) :
    ∃ shown ∈ (ofRecords relation rows).group key, shown.fingerprint = row.fingerprint := by
  rw [group_ofRecords]
  exact Record.exists_fingerprint_eq_of_mem (List.mem_filter.2 ⟨hrow, decide_eq_true hkey⟩)

end RelatedRows

/-! ## Attaching -/

namespace Relation

/-- The record is the root joined with the relation's rows, and otherwise unchanged. -/
structure Joined (relation : Relation) (rows : List Record) (root record : Record) : Prop where
  other_fields : ∀ field, field ≠ relation.property → record.get? field = root.get? field
  of_keyless : root.joinKey? relation.rootKeyField = none →
    record.get? relation.property = some relation.emptyValue
  of_many : ∀ key, root.joinKey? relation.rootKeyField = some key → relation.isMany = true →
    record.get? relation.property =
      some (.array ((relation.firstMatches rows key).map (·.toJson)))
  of_one : ∀ key, root.joinKey? relation.rootKeyField = some key → relation.isMany = false →
    record.get? relation.property =
      some (((relation.firstMatches rows key).head?.map (·.toJson)).getD .null)

theorem isMany_eq_true_iff {relation : Relation} :
    relation.isMany = true ↔ relation.cardinality = .many := by
  simp [isMany]

theorem attachment_of_many {relation : Relation} (h : relation.isMany = true)
    (rows : List Record) : relation.attachment rows = .array (rows.map (·.toJson)) := by
  simp only [attachment, isMany_eq_true_iff.1 h]

theorem attachment_of_one {relation : Relation} (h : relation.isMany = false)
    (rows : List Record) :
    relation.attachment rows = (rows.head?.map (·.toJson)).getD .null := by
  have hone : relation.cardinality = .one := by
    cases hcardinality : relation.cardinality with
    | one => rfl
    | many => rw [isMany_eq_true_iff.2 hcardinality] at h; cases h
  cases rows <;> simp only [attachment, hone] <;> rfl

theorem related_ofRecords {relation : Relation} {root : Record} {key : JoinKey}
    (h : root.joinKey? relation.rootKeyField = some key) (rows : List Record) :
    relation.related (.ofRecords relation rows) root = relation.firstMatches rows key := by
  simp only [related, h, RelatedRows.group_ofRecords_eq_firstMatches]

theorem related_of_keyless {relation : Relation} {root : Record}
    (h : root.joinKey? relation.rootKeyField = none) (rows : RelatedRows) :
    relation.related rows root = [] := by
  simp only [related, h]

theorem joined_attachTo (relation : Relation) (rows : List Record) (root : Record) :
    relation.Joined rows root (relation.attachTo rows root) where
  other_fields field hne := Record.get?_set_of_ne hne.symm ..
  of_keyless hkeyless := by
    rw [attachTo, Record.get?_set_self, related_of_keyless hkeyless, attachment_nil]
  of_many key hkey hmany := by
    rw [attachTo, Record.get?_set_self, related_ofRecords hkey, attachment_of_many hmany]
  of_one key hkey hone := by
    rw [attachTo, Record.get?_set_self, related_ofRecords hkey, attachment_of_one hone]

/-- Attaching the grouped rows joins every root in its place with the first row of each content.
No content is left out, and none is there twice. -/
theorem attach_joins (relation : Relation) (rows roots : List Record) :
    List.Forall₂ (relation.Joined rows) roots
        (relation.attach (.ofRecords relation rows) roots) ∧
      ∀ key, ((relation.firstMatches rows key).map (·.fingerprint)).Nodup ∧
        (∀ row ∈ relation.firstMatches rows key,
          row ∈ rows ∧ row.joinKey? relation.relationKeyField = some key) ∧
        ∀ row ∈ rows, row.joinKey? relation.relationKeyField = some key →
          ∃ shown ∈ relation.firstMatches rows key, shown.fingerprint = row.fingerprint := by
  refine ⟨?_, fun key => ?_⟩
  · rw [attach_eq_map, List.forall₂_map_right_iff, List.forall₂_same]
    exact fun root _ => joined_attachTo relation rows root
  · rw [← RelatedRows.group_ofRecords_eq_firstMatches]
    refine ⟨RelatedRows.nodup_group relation rows key, fun row hrow => ?_,
      fun row hrow hkey => RelatedRows.exists_mem_group hrow hkey⟩
    rw [RelatedRows.group_ofRecords] at hrow
    simpa using Record.mem_of_mem_distinct hrow

end Relation

end FederatedJoin
