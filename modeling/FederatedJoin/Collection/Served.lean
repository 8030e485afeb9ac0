-- SUMMARY: Collections that remember the requests they answered.
import FederatedJoin.Collection.Basic

/-!
# Served collections
-/

namespace FederatedJoin

structure ServedCollection where
  collection : Collection
  /-- The requests answered so far, oldest first. -/
  served : List Request
  deriving Inhabited

namespace ServedCollection

def ofCollection (collection : Collection) : ServedCollection := ⟨collection, []⟩

def insert (s : ServedCollection) (row : Record) : ServedCollection :=
  { s with collection := s.collection.insert row }

def log (s : ServedCollection) (r : Request) : ServedCollection :=
  { s with served := s.served ++ [r] }

def getMany (s : ServedCollection) (r : Request) : Page × ServedCollection :=
  (s.collection.getMany r, s.log r)

def getMany? (s : ServedCollection) (r : Request) : Option Page × ServedCollection :=
  (s.collection.getMany? r, s.log r)

def getOne (s : ServedCollection) (r : Request) :
    Except ProviderFailure Record × ServedCollection :=
  (s.collection.getOne r, s.log r)

def resetLog (s : ServedCollection) : ServedCollection := { s with served := [] }

end ServedCollection

end FederatedJoin
