-- SUMMARY: The command line: its arguments, and the answer to a dataset and a request.
import FederatedJoin.Dataset
import FederatedJoin.Json.Reader
import FederatedJoin.Wire.Plan
import FederatedJoin.Wire.Request

/-!
# Command line

Arguments are read from left to right, and the first one that is wrong, or asks
for the version or for help, ends the reading. A value may follow its option or
be attached to it; a following value may not look like an option. After `--`
nothing is an option.
-/

namespace FederatedJoin.CommandLine

/-- What is asked of the dataset. -/
inductive Mode where
  | many | one | explain
  deriving DecidableEq

structure Invocation where
  dataset : String
  request : Option String
  mode : Mode
  limits : Limits

/-- Why there is nothing to run. -/
inductive Stop where
  | version | help | misuse
  deriving DecidableEq

/-! ## Arguments -/

inductive Flag where
  | one | explain | sequential
  deriving DecidableEq

/-- An option that takes a value. -/
inductive Setting where
  | request | maxIterations | maxOffset | defaultLimit
  deriving DecidableEq

/-- What the arguments read so far say. -/
structure Draft where
  dataset : Option String
  flags : List Flag
  settings : List (Setting × String)

/-- What a long name stands for. -/
inductive NamedOption where
  | flag (f : Flag)
  | setting (s : Setting)
  | stop (s : Stop)

def longOption? : String → Option NamedOption
  | "request" => some (.setting .request)
  | "max-iterations" => some (.setting .maxIterations)
  | "max-offset" => some (.setting .maxOffset)
  | "default-limit" => some (.setting .defaultLimit)
  | "one" => some (.flag .one)
  | "explain" => some (.flag .explain)
  | "sequential" => some (.flag .sequential)
  | "version" => some (.stop .version)
  | "help" => some (.stop .help)
  | _ => none

/-- A number: digits, perhaps after a plus sign, that fit a word. -/
def word? (s : String) : Option UInt64 :=
  let digits := match s.toList with
    | '+' :: rest => rest
    | cs => cs
  if digits.isEmpty || !digits.all Char.isDigit then none
  else
    let n := digits.foldl (fun n d => n * 10 + (d.toNat - '0'.toNat)) 0
    if n < UInt64.size then some (UInt64.ofNat n) else none

namespace Draft

def empty : Draft := ⟨none, [], []⟩

def setDataset (d : Draft) (path : String) : Except Stop Draft :=
  if path.isEmpty || d.dataset.isSome then .error .misuse else .ok { d with dataset := some path }

def setFlag (d : Draft) (f : Flag) : Except Stop Draft :=
  if f ∈ d.flags then .error .misuse else .ok { d with flags := f :: d.flags }

/-- No option is given twice, and its value has to be of its kind. -/
def set (d : Draft) (s : Setting) (value : String) : Except Stop Draft :=
  let fits := match s with
    | .request => !value.isEmpty
    | _ => (word? value).isSome
  if fits && (d.settings.lookup s).isNone then
    .ok { d with settings := (s, value) :: d.settings }
  else .error .misuse

def word (d : Draft) (s : Setting) (default : UInt64) : UInt64 :=
  ((d.settings.lookup s).bind word?).getD default

def limits (d : Draft) : Limits :=
  let limits := Limits.standard
    |>.withMaxIterations (d.word .maxIterations Limits.standard.maxIterations)
    |>.withMaxOffset (d.word .maxOffset Limits.standard.maxOffset)
    |>.withDefaultLimit (d.word .defaultLimit Limits.standard.defaultLimit)
  if .sequential ∈ d.flags then limits.sequential else limits

/-- A dataset is needed, and one record cannot be explained. -/
def finish (d : Draft) : Except Stop Invocation :=
  match d.dataset with
  | none => .error .misuse
  | some dataset =>
    if .one ∈ d.flags && .explain ∈ d.flags then .error .misuse
    else
      let mode := if .explain ∈ d.flags then .explain else if .one ∈ d.flags then .one else .many
      .ok ⟨dataset, d.settings.lookup .request, mode, d.limits⟩

end Draft

/-- Reads the arguments after `--`. -/
def readPlain (d : Draft) : List String → Except Stop Draft
  | [] => .ok d
  | path :: rest => do
    let d ← d.setDataset path
    readPlain d rest

/-- The name of a long option and the value attached to it. -/
def splitLong (cs : List Char) : String × Option String :=
  let name := String.ofList (cs.takeWhile (· ≠ '='))
  match cs.dropWhile (· ≠ '=') with
  | [] => (name, none)
  | _ :: value => (name, some (String.ofList value))

/-- Whether an argument cannot be the value of the option before it. -/
def looksLikeOption (arg : String) : Bool :=
  match arg.toList with
  | '-' :: _ :: _ => true
  | _ => false

mutual

def read (d : Draft) : List String → Except Stop Draft
  | [] => .ok d
  | arg :: rest =>
    match arg.toList with
    | ['-', '-'] => readPlain d rest
    | '-' :: '-' :: long =>
      match splitLong long with
      | (name, attached) =>
        match longOption? name, attached with
        | some (.stop s), none => .error s
        | some (.flag f), none => do
          let d ← d.setFlag f
          read d rest
        | some (.setting s), some value => do
          let d ← d.set s value
          read d rest
        | some (.setting s), none => readValue d s rest
        | _, _ => .error .misuse
    | '-' :: 'V' :: _ => .error .version
    | '-' :: 'h' :: _ => .error .help
    | ['-', 'r'] => readValue d .request rest
    | '-' :: 'r' :: '=' :: value => do
      let d ← d.set .request (String.ofList value)
      read d rest
    | '-' :: 'r' :: value => do
      let d ← d.set .request (String.ofList value)
      read d rest
    | '-' :: _ :: _ => .error .misuse
    | _ => do
      let d ← d.setDataset arg
      read d rest

/-- Reads the value that follows an option, and the arguments after it. -/
def readValue (d : Draft) (s : Setting) : List String → Except Stop Draft
  | [] => .error .misuse
  | value :: rest =>
    if looksLikeOption value then .error .misuse
    else do
      let d ← d.set s value
      read d rest

end

def parse (args : List String) : Except Stop Invocation := do
  let d ← read .empty args
  d.finish

/-! ## Answers -/

/-- The contents of a file, or why it cannot be read. -/
abbrev Files : Type := String → Except String String

def readText (files : Files) (path : String) : Except String String :=
  (files path).mapError fun reason => "failed to read " ++ path ++ ": " ++ reason

def parseText {α : Type} (path : String) (read : Json.Tree → Option α) (text : String) :
    Except String α :=
  match (Json.Tree.ofText? text).bind read with
  | some a => .ok a
  | none => .error ("failed to parse " ++ path)

/-- The answer of a federation of collections. Sums are checked. -/
def answer (f : Federation Collection) (mode : Mode) (r : Request) : Except Failure Json :=
  match mode with
  | .many => ((f.getManyChecked r).run f.checkedBackend).1.map (·.toJson)
  | .one => ((f.getOne r).run f.checkedBackend).1.map (·.toJson)
  | .explain => (f.explain r).map (·.toJson)

/-- How a run of the program ends. -/
inductive Outcome where
  | printed (text : String)
  | failed (message : String)
  | misused
  /-- An overflow ends the program as it stands. -/
  | overflowed

def Outcome.ofFailure : Failure → Outcome
  | .overflow => .overflowed
  | e => .failed e.message

/-- The text to print, or how the first thing that went wrong ends the run. -/
def Invocation.run (i : Invocation) (files : Files) : Except Outcome String := do
  let text ← (readText files i.dataset).mapError .failed
  let dataset ← (parseText i.dataset Dataset.ofTree? text).mapError .failed
  let federation ← (dataset.federation i.limits).mapError .ofFailure
  let request ← match i.request with
    | none => pure Request.empty
    | some path => do
      let text ← (readText files path).mapError .failed
      (parseText path Request.ofTree? text).mapError .failed
  let json ← (answer federation i.mode request).mapError .ofFailure
  return json.pretty ++ "\n"

def versionText : String := "fedquery 0.1.0\n"

def helpText : String :=
  "Run federated queries over JSON datasets\n\n" ++
  "Usage: fedquery [OPTIONS] <DATASET>\n"

def outcome (args : List String) (files : Files) : Outcome :=
  match parse args with
  | .error .version => .printed versionText
  | .error .help => .printed helpText
  | .error .misuse => .misused
  | .ok i =>
    match i.run files with
    | .ok text => .printed text
    | .error stop => stop

end FederatedJoin.CommandLine
