-- SUMMARY: Writing a double: positional or exponent notation over its shortest digits.
import FederatedJoin.Double.Shortest

/-!
# Layout of doubles

A format decides where positional notation ends, whether a whole number keeps
its point, and how a tie between two shortest decimals is broken. The digits
themselves are those of `Double.shortest`.
-/

namespace FederatedJoin.Double

structure Layout where
  /-- Whether a number whose leading digit has this exponent is written without an exponent. -/
  positional : Int → Bool
  /-- Whether a whole number in positional notation ends in `.0`. -/
  keepsPoint : Bool
  /-- Whether the upper of two equally near decimals is taken, and not the even one. -/
  tieUp : Bool

namespace Layout

def zeros (n : Nat) : String := String.ofList (List.replicate n '0')

def digitText (n : Nat) : String := String.ofList (Nat.toDigits 10 n)

/-- A decimal written without an exponent. -/
def writePositional (layout : Layout) (d : Decimal) : String :=
  let text := digitText d.digits
  match d.exponent with
  | .ofNat up => text ++ zeros up ++ (if layout.keepsPoint then ".0" else "")
  | .negSucc less =>
    let places := less + 1
    if places < text.length then
      let digits := text.toList
      let whole := digits.take (digits.length - places)
      let fraction := digits.drop (digits.length - places)
      String.ofList whole ++ "." ++ String.ofList fraction
    else "0." ++ zeros (places - text.length) ++ text

/-- A decimal as one digit, the others after a point, and a signed exponent. -/
def writeExponent (d : Decimal) : String :=
  let digits := Nat.toDigits 10 d.digits
  let leading := d.exponent + (digits.length - 1 : Nat)
  let fraction := match digits.drop 1 with
    | [] => ""
    | rest => "." ++ String.ofList rest
  String.ofList (digits.take 1) ++ fraction ++ "e" ++ (if leading < 0 then "-" else "+")
    ++ digitText leading.natAbs

/-- The text of the magnitude of a finite number. -/
def writeMagnitude (layout : Layout) (word : Nat) : String :=
  if word = 0 then layout.writePositional ⟨0, 0⟩
  else
    let d := shortest word layout.tieUp
    let leading := d.exponent + ((Nat.toDigits 10 d.digits).length - 1 : Nat)
    if layout.positional leading then layout.writePositional d else writeExponent d

def write (layout : Layout) (x : Double) : String :=
  if x.isNaN then "NaN"
  else (if x.isNegative then "-" else "")
    ++ (if x.isFinite then layout.writeMagnitude x.magnitude else "inf")

end Layout

end FederatedJoin.Double
