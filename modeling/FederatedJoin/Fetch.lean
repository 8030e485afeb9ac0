-- SUMMARY: Computations that call providers, with the trace of their calls.
import FederatedJoin.Failure
import FederatedJoin.Page
import FederatedJoin.Request
import FederatedJoin.Schema

/-!
# Fetching

The root and every relation are reached only through requests to a provider. A
backend stands for all providers at once; what it answers may depend on every
call before, so nothing is assumed about providers that change or fail. A
`Fetch` runs against a backend and adds each of its calls to a trace, failed
ones included; the first failure ends it.
-/

namespace FederatedJoin

/-- The provider that a call goes to. -/
inductive Source (relations : List Relation) where
  | root
  | relation (id : RelationId relations)
  deriving DecidableEq

inductive Method where
  | getMany | getOne
  deriving DecidableEq

structure Call (relations : List Relation) where
  source : Source relations
  method : Method
  request : Request

/-- The answers of all providers, given the calls before. -/
structure Backend (relations : List Relation) where
  getMany : List (Call relations) → Source relations → Request → Except Fault Page
  getOne : List (Call relations) → Source relations → Request → Except Fault Record

def Fetch (relations : List Relation) (α : Type) : Type :=
  Backend relations → List (Call relations) → Except Failure α × List (Call relations)

namespace Fetch

variable {relations : List Relation} {α β : Type}

protected def pure (a : α) : Fetch relations α := fun _ trace => (.ok a, trace)

protected def bind (x : Fetch relations α) (f : α → Fetch relations β) : Fetch relations β :=
  fun backend trace =>
    match x backend trace with
    | (.ok a, trace) => f a backend trace
    | (.error e, trace) => (.error e, trace)

instance : Monad (Fetch relations) where
  pure := Fetch.pure
  bind := Fetch.bind

def fail (e : Failure) : Fetch relations α := fun _ trace => (.error e, trace)

def ofExcept : Except Failure α → Fetch relations α
  | .ok a => pure a
  | .error e => fail e

def getMany (source : Source relations) (r : Request) : Fetch relations Page :=
  fun backend trace =>
    ((backend.getMany trace source r).mapError .ofFault, trace ++ [⟨source, .getMany, r⟩])

def getOne (source : Source relations) (r : Request) : Fetch relations Record :=
  fun backend trace =>
    ((backend.getOne trace source r).mapError .ofFault, trace ++ [⟨source, .getOne, r⟩])

/-- The result and the calls of a computation that starts with no call before it. -/
def run (x : Fetch relations α) (backend : Backend relations) :
    Except Failure α × List (Call relations) := x backend []

/-! ## Steps of a run -/

@[simp] theorem pure_apply (a : α) (b : Backend relations) (t : List (Call relations)) :
    (pure a : Fetch relations α) b t = (.ok a, t) := rfl

@[simp] theorem fail_apply (e : Failure) (b : Backend relations) (t : List (Call relations)) :
    (fail e : Fetch relations α) b t = (.error e, t) := rfl

theorem bind_apply (x : Fetch relations α) (f : α → Fetch relations β) (b : Backend relations)
    (t : List (Call relations)) :
    (x >>= f) b t =
      match x b t with
      | (.ok a, t) => f a b t
      | (.error e, t) => (.error e, t) := rfl

theorem bind_of_ok {x : Fetch relations α} {b : Backend relations} {t t' : List (Call relations)}
    {a : α} (h : x b t = (.ok a, t')) (f : α → Fetch relations β) : (x >>= f) b t = f a b t' := by
  rw [bind_apply, h]

theorem bind_of_error {x : Fetch relations α} {b : Backend relations}
    {t t' : List (Call relations)} {e : Failure} (h : x b t = (.error e, t'))
    (f : α → Fetch relations β) : (x >>= f) b t = (.error e, t') := by
  rw [bind_apply, h]

theorem id_map_apply (x : Fetch relations α) : id <$> x = x := by
  funext b t
  show (match x b t with
    | (.ok a, t) => (.ok a, t)
    | (.error e, t) => (.error e, t)) = x b t
  rcases x b t with ⟨_ | _, _⟩ <;> rfl

theorem bind_bind {γ : Type} (x : Fetch relations α) (f : α → Fetch relations β)
    (g : β → Fetch relations γ) : x >>= f >>= g = x >>= fun a => f a >>= g := by
  funext b t
  simp only [bind_apply]
  rcases x b t with ⟨_ | _, _⟩ <;> rfl

instance : LawfulMonad (Fetch relations) :=
  LawfulMonad.mk' _ id_map_apply (fun _ _ => rfl) bind_bind

end Fetch

end FederatedJoin
