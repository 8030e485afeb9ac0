-- SUMMARY: Declarations of the relations between a root collection and others.
import FederatedJoin.Condition.Basic

/-!
# Relations

A relation attaches records of another collection to each root, under a
property of the root. The foreign key lies with the related records, unless the
root owns it.
-/

namespace FederatedJoin

inductive Cardinality where
  | one | many
  deriving DecidableEq, Inhabited

inductive Join where
  | left | inner
  deriving DecidableEq, Inhabited

structure Relation where
  property : String
  cardinality : Cardinality
  join : Join
  /-- Whether the foreign key is a field of the root. -/
  owner : Bool
  primaryKey : String
  foreignKey : String
  /-- Conditions that leave at most one related record for each key. -/
  distinctFilter : List Condition
  provider : String
  deriving Inhabited

namespace Relation

def hasOne (property provider primaryKey foreignKey : String) : Relation :=
  ⟨property, .one, .left, false, primaryKey, foreignKey, [], provider⟩

def hasMany (property provider primaryKey foreignKey : String) : Relation :=
  { hasOne property provider primaryKey foreignKey with cardinality := .many }

def belongsTo (property provider primaryKey foreignKey : String) : Relation :=
  { hasOne property provider primaryKey foreignKey with owner := true }

def withJoin (r : Relation) (join : Join) : Relation := { r with join }

def withDistinctFilter (r : Relation) (c : Condition) : Relation :=
  { r with distinctFilter := r.distinctFilter ++ [c.untagged] }

def isMany (r : Relation) : Bool := r.cardinality == .many

def isInner (r : Relation) : Bool := r.join == .inner

def hasDistinctFilter (r : Relation) : Bool := !r.distinctFilter.isEmpty

/-- The field of a root that holds its join key. -/
def rootKeyField (r : Relation) : String := if r.owner then r.foreignKey else r.primaryKey

/-- The field of a related record that holds its join key. -/
def relationKeyField (r : Relation) : String := if r.owner then r.primaryKey else r.foreignKey

/-- What a root without related records gets. -/
def emptyValue (r : Relation) : Json :=
  match r.cardinality with
  | .one => .null
  | .many => .array []

end Relation

end FederatedJoin
