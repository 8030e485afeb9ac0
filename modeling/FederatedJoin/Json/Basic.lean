-- SUMMARY: JSON values: numbers that are words or finite doubles, and objects as dictionaries.
import FederatedJoin.Dictionary
import FederatedJoin.Double.Rounding

/-!
# JSON values

A number is an integer that fits a 64-bit word, signed or unsigned, or a finite
double. An object is a dictionary; a value is well formed when the names of
every object in it ascend, and then equal contents are equal values.
-/

namespace FederatedJoin

namespace Json

/-- The integers of a 64-bit word, signed or unsigned. -/
abbrev IsWord (n : Int) : Prop := -9223372036854775808 ≤ n ∧ n < 18446744073709551616

inductive Number where
  | integer (value : Int) (isWord : IsWord value)
  | double (value : Double) (finite : value.isFinite = true)
  deriving DecidableEq

namespace Number

def ofInt? (n : Int) : Option Number :=
  if h : IsWord n then some (.integer n h) else none

def ofDouble? (x : Double) : Option Number :=
  if h : x.isFinite = true then some (.double x h) else none

def ofInt64 (n : Int64) : Number :=
  .integer n.toInt ⟨by have := n.le_toInt; omega, by have := n.toInt_lt; omega⟩

def ofUInt64 (n : UInt64) : Number :=
  .integer n.toNat ⟨by omega, by have := n.toNat_lt; omega⟩

/-- The number as a signed word, if it is an integer in that range. -/
def toInt64? : Number → Option Int64
  | .integer n _ => if n < 9223372036854775808 then some (Int64.ofInt n) else none
  | .double _ _ => none

def toUInt64? : Number → Option UInt64
  | .integer n _ => if 0 ≤ n then some (UInt64.ofNat n.toNat) else none
  | .double _ _ => none

def toDouble : Number → Double
  | .integer n _ => Double.ofInt n
  | .double x _ => x

theorem toInt64?_ofInt64 (n : Int64) : (ofInt64 n).toInt64? = some n := by
  have := n.toInt_lt
  simp only [ofInt64, toInt64?]
  rw [if_pos (by omega), Int64.ofInt_toInt]

theorem toUInt64?_ofUInt64 (n : UInt64) : (ofUInt64 n).toUInt64? = some n := by
  simp [ofUInt64, toUInt64?]

end Number

end Json

inductive Json where
  | null
  | bool (value : Bool)
  | number (value : Json.Number)
  | string (value : String)
  | array (items : List Json)
  | object (fields : List (String × Json))
  deriving Inhabited

namespace Json

def int64 (n : Int64) : Json := .number (.ofInt64 n)

def uint64 (n : UInt64) : Json := .number (.ofUInt64 n)

/-- What a value is called in a message. -/
def kind : Json → String
  | .null => "null"
  | .bool _ => "bool"
  | .number _ => "number"
  | .string _ => "string"
  | .array _ => "array"
  | .object _ => "object"

/-! ## Well-formed values -/

mutual

/-- The names of every object inside ascend. -/
def WellFormed : Json → Prop
  | .array items => AllWellFormed items
  | .object fields => Dictionary.Ascending fields ∧ FieldsWellFormed fields
  | _ => True

def AllWellFormed : List Json → Prop
  | [] => True
  | item :: rest => item.WellFormed ∧ AllWellFormed rest

def FieldsWellFormed : List (String × Json) → Prop
  | [] => True
  | (_, value) :: rest => value.WellFormed ∧ FieldsWellFormed rest

end

theorem fieldsWellFormed_insert {fields : List (String × Json)} (h : FieldsWellFormed fields)
    (name : String) {value : Json} (hv : value.WellFormed) :
    FieldsWellFormed (Dictionary.insert name value fields) := by
  induction fields with
  | nil => exact ⟨hv, trivial⟩
  | cons p rest ih =>
    obtain ⟨k, v⟩ := p
    simp only [Dictionary.insert]
    split
    · exact ⟨hv, h.2⟩
    · split
      · exact ⟨hv, h⟩
      · exact ⟨h.1, ih h.2⟩

end Json

end FederatedJoin
