-- SUMMARY: Related records grouped by join key, and attached to roots.
import FederatedJoin.Relation
import FederatedJoin.Record

/-!
# Related rows

The rows of a relation are kept with their join keys; rows without one are
dropped, and of rows with the same key and content only the first stays.
Attaching them to a root is a join on that key.
-/

namespace FederatedJoin

structure RelatedRow where
  key : JoinKey
  fingerprint : String
  row : Record

abbrev RelatedRows : Type := List RelatedRow

namespace RelatedRow

def ofRecord? (relation : Relation) (row : Record) : Option RelatedRow :=
  (row.joinKey? relation.relationKeyField).map fun key => ⟨key, row.fingerprint, row⟩

/-- The same content under the same key. -/
def duplicates (a b : RelatedRow) : Bool := a.key == b.key && a.fingerprint == b.fingerprint

end RelatedRow

namespace RelatedRows

def ofRecords (relation : Relation) (rows : List Record) : RelatedRows :=
  (rows.filterMap (RelatedRow.ofRecord? relation)).eraseDupsBy RelatedRow.duplicates

/-- The records of one key, in row order. -/
def group (rows : RelatedRows) (key : JoinKey) : List Record :=
  (rows.filter (·.key = key)).map (·.row)

def keys (rows : RelatedRows) : List JoinKey := (rows.map (·.key)).eraseDups

end RelatedRows

namespace Relation

/-- The value of the relation's property for a root with these related records. -/
def attachment (relation : Relation) (rows : List Record) : Json :=
  match relation.cardinality, rows with
  | .many, rows => .array (rows.map (·.toJson))
  | .one, row :: _ => row.toJson
  | .one, [] => .null

/-- The records that belong to a root; none when the root has no join key. -/
def related (relation : Relation) (rows : RelatedRows) (root : Record) : List Record :=
  match root.joinKey? relation.rootKeyField with
  | some key => rows.group key
  | none => []

def attach (relation : Relation) (rows : RelatedRows) (roots : List Record) : List Record :=
  roots.map fun root =>
    root.set relation.property (relation.attachment (relation.related rows root))

def attachEmpty (relation : Relation) (roots : List Record) : List Record :=
  roots.map fun root => root.set relation.property relation.emptyValue

theorem attachment_nil (relation : Relation) : relation.attachment [] = relation.emptyValue := by
  cases h : relation.cardinality <;> simp [attachment, emptyValue, h]

@[simp] theorem length_attach (relation : Relation) (rows : RelatedRows) (roots : List Record) :
    (relation.attach rows roots).length = roots.length := by simp [attach]

@[simp] theorem length_attachEmpty (relation : Relation) (roots : List Record) :
    (relation.attachEmpty roots).length = roots.length := by simp [attachEmpty]

end Relation

end FederatedJoin
