-- SUMMARY: Limits on how deep and how long discovery reads, and the page size by default.
import FederatedJoin.Page

/-!
# Limits
-/

namespace FederatedJoin

structure Limits where
  /-- Windows that discovery may read beyond those that the page itself needs. -/
  maxIterations : UInt64
  /-- No discovery window starts at this offset or after it. -/
  maxOffset : UInt64
  /-- The page size of a request that gives none. -/
  defaultLimit : UInt64
  /-- Whether independent fetches may be issued together. Answers do not depend on it. -/
  concurrentFanOut : Bool
  deriving DecidableEq

namespace Limits

def standard : Limits := ⟨10, 10000, 100, true⟩

instance : Inhabited Limits := ⟨standard⟩

def withMaxIterations (l : Limits) (n : UInt64) : Limits :=
  { l with maxIterations := Page.atLeastOne n }

def withMaxOffset (l : Limits) (n : UInt64) : Limits := { l with maxOffset := n }

def withDefaultLimit (l : Limits) (n : UInt64) : Limits :=
  { l with defaultLimit := Page.atLeastOne n }

def sequential (l : Limits) : Limits := { l with concurrentFanOut := false }

end Limits

end FederatedJoin
