-- SUMMARY: Binding declared relations to the providers that a directory knows by name.
import FederatedJoin.Schema

/-!
# Bindings

A directory is a dictionary of providers. Each relation is bound to the
provider it names; the bindings stand in the order of the declarations.
-/

namespace FederatedJoin

structure Binding (α : Type) where
  relation : Relation
  provider : α

namespace Binding

variable {α : Type}

def resolve (directory : Dictionary α) : List Relation → Except Failure (List (Binding α))
  | [] => .ok []
  | r :: rest =>
    match directory.get? r.provider with
    | none => .error (.missingProvider r.property r.provider)
    | some p => (resolve directory rest).map (⟨r, p⟩ :: ·)

theorem map_relation_of_resolve {directory : Dictionary α} {relations : List Relation}
    {bindings : List (Binding α)} (h : resolve directory relations = .ok bindings) :
    bindings.map (·.relation) = relations := by
  induction relations generalizing bindings with
  | nil => cases h; rfl
  | cons r rest ih =>
    simp only [resolve] at h
    split at h
    · cases h
    · next p _ =>
      cases hr : resolve directory rest with
      | error e => rw [hr] at h; cases h
      | ok bs => rw [hr] at h; cases h; simp [ih hr]

end Binding

end FederatedJoin
