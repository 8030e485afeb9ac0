-- SUMMARY: The two written forms of a JSON value: compact, and indented by two spaces.
import FederatedJoin.Json.Basic
import FederatedJoin.Double.Layout

/-!
# Writing JSON

Both forms write the fields of an object in the order in which the object holds
them. The compact form of a well-formed value therefore depends on its content
alone.
-/

namespace FederatedJoin.Json

/-! ## Leaves -/

/-- Positional notation from `0.00001` up to sixteen digits before the point; a
whole number keeps `.0`, so it never reads as an integer. -/
def doubleLayout : Double.Layout :=
  ⟨fun leading => -5 ≤ leading && leading ≤ 15, true, false⟩

def hexDigit (n : Nat) : Char := Nat.digitChar (n % 16)

def escape (c : Char) : List Char :=
  if c = '"' then ['\\', '"']
  else if c = '\\' then ['\\', '\\']
  else if 32 ≤ c.toNat then [c]
  else if c.toNat = 8 then ['\\', 'b']
  else if c.toNat = 9 then ['\\', 't']
  else if c.toNat = 10 then ['\\', 'n']
  else if c.toNat = 12 then ['\\', 'f']
  else if c.toNat = 13 then ['\\', 'r']
  else ['\\', 'u', '0', '0', hexDigit (c.toNat / 16), hexDigit c.toNat]

def stringChars (s : String) : List Char := '"' :: (s.toList.flatMap escape ++ ['"'])

def integerChars : Int → List Char
  | .ofNat n => Nat.toDigits 10 n
  | .negSucc n => '-' :: Nat.toDigits 10 (n + 1)

def Number.chars : Number → List Char
  | .integer n _ => integerChars n
  | .double x _ => (doubleLayout.write x).toList

/-! ## Compact form -/

mutual

def compactChars : Json → List Char
  | .null => ['n', 'u', 'l', 'l']
  | .bool true => ['t', 'r', 'u', 'e']
  | .bool false => ['f', 'a', 'l', 's', 'e']
  | .number n => n.chars
  | .string s => stringChars s
  | .array [] => ['[', ']']
  | .array (item :: rest) => '[' :: (compactChars item ++ compactItems rest)
  | .object [] => ['{', '}']
  | .object ((name, value) :: rest) =>
    '{' :: (stringChars name ++ ':' :: (compactChars value ++ compactFields rest))

/-- The items after the first, and the closing bracket. -/
def compactItems : List Json → List Char
  | [] => [']']
  | item :: rest => ',' :: (compactChars item ++ compactItems rest)

/-- The fields after the first, and the closing brace. -/
def compactFields : List (String × Json) → List Char
  | [] => ['}']
  | (name, value) :: rest =>
    ',' :: (stringChars name ++ ':' :: (compactChars value ++ compactFields rest))

end

def compact (j : Json) : String := String.ofList j.compactChars

/-! ## Indented form -/

def newline (depth : Nat) : List Char := '\n' :: List.replicate (2 * depth) ' '

mutual

/-- The lines of a value inside `depth` containers; empty containers stay on one line. -/
def prettyChars (depth : Nat) : Json → List Char
  | .array (item :: rest) =>
    '[' :: (newline (depth + 1) ++ prettyChars (depth + 1) item ++ prettyItems depth rest)
  | .object ((name, value) :: rest) =>
    '{' :: (newline (depth + 1) ++ stringChars name ++ ':' :: ' ' ::
      prettyChars (depth + 1) value ++ prettyFields depth rest)
  | j => compactChars j

def prettyItems (depth : Nat) : List Json → List Char
  | [] => newline depth ++ [']']
  | item :: rest =>
    ',' :: (newline (depth + 1) ++ prettyChars (depth + 1) item ++ prettyItems depth rest)

def prettyFields (depth : Nat) : List (String × Json) → List Char
  | [] => newline depth ++ ['}']
  | (name, value) :: rest =>
    ',' :: (newline (depth + 1) ++ stringChars name ++ ':' :: ' ' ::
      prettyChars (depth + 1) value ++ prettyFields depth rest)

end

def pretty (j : Json) : String := String.ofList (prettyChars 0 j)

end FederatedJoin.Json
