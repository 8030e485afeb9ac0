-- SUMMARY: The text of an operand in messages.
import FederatedJoin.Operand.Basic
import FederatedJoin.Json.Printer
import FederatedJoin.Text.Quoted

/-!
# Text of operands

Numbers are written without an exponent, strings in quotes, lists in brackets.
-/

namespace FederatedJoin.Operand

/-- Doubles are written in positional notation throughout, whole ones without a point. -/
def doubleLayout : Double.Layout := ⟨fun _ => true, false, true⟩

mutual

def text : Operand → String
  | .null => "null"
  | .bool true => "true"
  | .bool false => "false"
  | .int n => String.ofList (Json.integerChars n.toInt)
  | .float x => doubleLayout.write x
  | .string s => Text.quote s
  | .list [] => "[]"
  | .list (item :: rest) => "[" ++ text item ++ textItems rest

/-- The items after the first, and the closing bracket. -/
def textItems : List Operand → String
  | [] => "]"
  | item :: rest => ", " ++ text item ++ textItems rest

end

end FederatedJoin.Operand
