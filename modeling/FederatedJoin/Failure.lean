-- SUMMARY: Why a federated request fails: its configuration, its shape, a provider, or an overflow.
import FederatedJoin.InputError

/-!
# Failures
-/

namespace FederatedJoin

inductive ProviderFailure where
  | notFound (entity : String)
  | failed (message : String)
  | other (message : String)
  deriving DecidableEq

def ProviderFailure.message : ProviderFailure → String
  | .notFound entity => entity ++ " not found"
  | .failed message => "provider failure: " ++ message
  | .other message => message

/-- How a call to a provider ends when it gives no answer. -/
inductive Fault where
  | failure (failure : ProviderFailure)
  /-- A checked sum is beyond the words. -/
  | overflow
  deriving DecidableEq

inductive Failure where
  | missingDistinctFilter (relation field : String)
  | ownerRelationConstraint (relation : String)
  | missingProvider (relation provider : String)
  | missingRootKey (entity : String)
  | unknownRelation (relation : String)
  | duplicateRelation (relation : String)
  | mismatchedJoinKey (relation expected actual : String)
  | unsupportedSearch
  | unsupportedRootOr
  | multipleSortRelations (first second : String)
  | input (error : InputError)
  | provider (failure : ProviderFailure)
  /-- A checked sum is beyond the words. -/
  | overflow
  deriving DecidableEq

namespace Failure

/-- What becomes of a request when one of its calls gets no answer. -/
def ofFault : Fault → Failure
  | .failure e => .provider e
  | .overflow => .overflow

def message : Failure → String
  | .missingDistinctFilter relation field =>
    "relation '" ++ relation ++ "' is one-to-many and used by '" ++ field
      ++ "' but declares no distinct filter"
  | .ownerRelationConstraint relation =>
    "relation '" ++ relation
      ++ "' is an owner relation; sorting or filtering on it cannot constrain root ids"
  | .missingProvider relation name =>
    "no provider '" ++ name ++ "' registered for relation '" ++ relation ++ "'"
  | .missingRootKey entity => "root entity '" ++ entity ++ "' declares no primary key"
  | .unknownRelation relation => "unknown relation '" ++ relation ++ "'"
  | .duplicateRelation relation => "relation '" ++ relation ++ "' is declared more than once"
  | .mismatchedJoinKey relation expected actual =>
    "relation '" ++ relation ++ "' joins on root field '" ++ actual ++ "', expected '"
      ++ expected ++ "'"
  | .unsupportedSearch => "raw search expressions are not supported; use structured filters"
  | .unsupportedRootOr =>
    "OR conditions on the root collection are not supported; only AND is federated"
  | .multipleSortRelations first second =>
    "sorting by more than one relation is not supported ('" ++ first ++ "' and '" ++ second
      ++ "')"
  | .input error => "protocol error: " ++ error.message
  | .provider failure => failure.message
  | .overflow => "attempt to add with overflow"

/-! ## Kinds -/

/-- The schema or the directory of providers has to change. -/
def isConfiguration : Failure → Bool
  | .missingDistinctFilter .. | .ownerRelationConstraint .. | .missingProvider ..
  | .missingRootKey .. | .unknownRelation .. | .duplicateRelation ..
  | .mismatchedJoinKey .. => true
  | _ => false

/-- The request asks for what cannot be federated. -/
def isUnsupportedQuery : Failure → Bool
  | .unsupportedSearch | .unsupportedRootOr | .multipleSortRelations .. | .input .. => true
  | _ => false

def isProvider : Failure → Bool
  | .provider .. => true
  | _ => false

end Failure

end FederatedJoin
