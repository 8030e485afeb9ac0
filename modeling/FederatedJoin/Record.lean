-- SUMMARY: Records, the schemaless rows of every collection.
import FederatedJoin.InputError
import FederatedJoin.Operand.Basic

/-!
# Records

A record is a JSON object. A field that is missing reads as null; `contains`
alone tells the two apart.
-/

namespace FederatedJoin

structure Record where
  fields : Dictionary Json
  deriving Inhabited

namespace Record

def empty : Record := ⟨[]⟩

def ofJson : Json → Except InputError Record
  | .object fields => .ok ⟨fields⟩
  | other => .error (.notAnObject other.kind)

def toJson (r : Record) : Json := .object r.fields

/-- The record's names ascend, and so do those of every object inside it. -/
def WellFormed (r : Record) : Prop := r.toJson.WellFormed

def set (r : Record) (field : String) (value : Json) : Record := ⟨r.fields.insert field value⟩

def get? (r : Record) (field : String) : Option Json := r.fields.get? field

def contains (r : Record) (field : String) : Bool := r.fields.contains field

def value (r : Record) (field : String) : Operand := ((r.get? field).map .ofJson).getD .null

def joinKey? (r : Record) (field : String) : Option JoinKey :=
  (r.get? field).bind JoinKey.ofJson?

/-- The text of the whole content. Well-formed records with the same content
have the same fingerprint, in whatever order their fields were set. -/
def fingerprint (r : Record) : String := r.toJson.compact

/-- The distinct join keys of records, in order of first occurrence. -/
def joinKeys (rows : List Record) (field : String) : List JoinKey :=
  (rows.filterMap (·.joinKey? field)).eraseDups

/-! ## Reading after writing -/

@[simp] theorem get?_set_self (r : Record) (field : String) (value : Json) :
    (r.set field value).get? field = some value := Dictionary.get?_insert_self ..

theorem get?_set_of_ne {field other : String} (h : field ≠ other) (r : Record) (value : Json) :
    (r.set field value).get? other = r.get? other := Dictionary.get?_insert_of_ne h ..

theorem set_comm {field other : String} (h : field ≠ other) (r : Record) (value more : Json) :
    (r.set other more).set field value = (r.set field value).set other more :=
  congrArg Record.mk (Dictionary.insert_comm h value more r.fields)

theorem joinKey?_set_of_ne {field other : String} (h : field ≠ other) (r : Record)
    (value : Json) : (r.set field value).joinKey? other = r.joinKey? other := by
  simp [joinKey?, get?_set_of_ne h]

theorem toJoinKey?_value (r : Record) (field : String) :
    (r.value field).toJoinKey? = r.joinKey? field := by
  cases h : r.get? field <;> simp [value, joinKey?, h, Operand.toJoinKey?_ofJson]
  rfl

end Record

end FederatedJoin
