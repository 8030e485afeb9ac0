-- SUMMARY: Datasets: a schema with the rows of its root and of its providers.
import FederatedJoin.Federation
import FederatedJoin.Wire.Schema

/-!
# Datasets

A dataset holds everything that a federation over collections needs. A provider
that a relation names and for which there are no rows is an empty collection.
-/

namespace FederatedJoin

open Json (Tree)

structure Dataset where
  schema : Schema
  roots : List Record
  /-- The rows of each provider, by its name. -/
  collections : Dictionary (List Record)

namespace Dataset

/-- Rows by name; of a repeated name the last rows stay. -/
def collectionsOfTree? : Tree → Option (Dictionary (List Record))
  | .object fields => do
    let pairs ← fields.mapM fun (name, tree) => do
      let name ← name
      let rows ← Wire.list? Record.ofTree? tree
      return (name, rows)
    return .ofList pairs
  | _ => none

def ofTree? (tree : Tree) : Option Dataset := do
  let parts ← Wire.parts? ["schema", "roots", "collections"] tree
  let schema ← parts.required? "schema" Schema.ofTree?
  let roots ← parts.defaulted? "roots" [] (Wire.list? Record.ofTree?)
  let collections ← parts.defaulted? "collections" [] collectionsOfTree?
  return ⟨schema, roots, collections⟩

/-- The rows by name, with an entry for the provider of every relation. -/
def filled (d : Dataset) : Dictionary (List Record) :=
  d.schema.relations.foldl (fun rows r =>
    if rows.contains r.provider then rows else rows.insert r.provider []) d.collections

/-- A collection for every name. -/
def directory (d : Dataset) : Dictionary Collection :=
  d.filled.map fun (name, rows) => (name, ⟨name, rows⟩)

def federation (d : Dataset) (limits : Limits) : Except Failure (Federation Collection) :=
  Federation.make d.schema ⟨d.schema.root.entity, d.roots⟩ d.directory limits

end Dataset

end FederatedJoin
