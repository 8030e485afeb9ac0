-- SUMMARY: Strings in double quotes, with escapes for what cannot be shown.
import FederatedJoin.Text.Unprintable

/-!
# Quoted text

A quoted string is on one line, and every character in it is either itself,
visible, or an escape.
-/

namespace FederatedJoin.Text

/-- Named escapes come first; any other unprintable character is written by its
code point in lower-case hexadecimal. -/
def quoteChar (c : Char) : List Char :=
  if c = '\x00' then ['\\', '0']
  else if c = '\t' then ['\\', 't']
  else if c = '\r' then ['\\', 'r']
  else if c = '\n' then ['\\', 'n']
  else if c = '"' then ['\\', '"']
  else if c = '\\' then ['\\', '\\']
  else if isUnprintable c then
    ['\\', 'u', '{'] ++ Nat.toDigits 16 c.toNat ++ ['}']
  else [c]

def quote (s : String) : String :=
  String.ofList ('"' :: (s.toList.flatMap quoteChar ++ ['"']))

end FederatedJoin.Text
