-- SUMMARY: The program: reads the files that the arguments name and prints the outcome.
import FederatedJoin.CommandLine

/-!
# Program
-/

open FederatedJoin CommandLine

def readFile (path : String) : IO (Except String String) := do
  match ← (IO.FS.readFile path).toBaseIO with
  | .ok text => return .ok text
  | .error (.noFileOrDirectory ..) => return .error "No such file or directory (os error 2)"
  | .error e => return .error (toString e)

/-- The files that the arguments name, as far as they can be read. -/
def readFiles (args : List String) : IO Files := do
  let paths := match parse args with
    | .ok i => i.dataset :: i.request.toList
    | .error _ => []
  let contents ← paths.mapM fun path => return (path, ← readFile path)
  return fun path => (contents.lookup path).getD (.error "not read")

def main (args : List String) : IO UInt32 := do
  match outcome args (← readFiles args) with
  | .printed text =>
    IO.print text
    return 0
  | .failed message =>
    IO.eprintln ("Error: " ++ message)
    return 1
  | .misused =>
    IO.eprintln "error: the arguments are not understood"
    return 2
  | .overflowed =>
    IO.eprintln Failure.overflow.message
    return 101
