-- SUMMARY: The fewest decimal digits that read back as a double.
import FederatedJoin.Double.Basic

/-!
# Shortest decimals

The reals that round to a word form an interval around its value. Of the
decimals with one digit, then two, and so on, the first that lies in the
interval is the shortest text of the word; of two neighbours in the interval
the nearer is taken. All comparisons are between whole numbers.
-/

namespace FederatedJoin.Double

/-- `digits * 10 ^ exponent`. -/
structure Decimal where
  digits : Nat
  exponent : Int
  deriving DecidableEq

/-- The exponent of the leading decimal digit of `value * 2 ^ -1074`. -/
def decade (value : Nat) : Int :=
  let guess : Int := ((value.log2 : Int) - 1074) * 30103 / 100000
  let atLeast (e : Int) : Bool :=
    Nat.pow 10 e.toNat * unitsOfOne ≤ value * Nat.pow 10 (-e).toNat
  if atLeast (guess + 1) then guess + 1 else if atLeast guess then guess else guess - 1

/-- The point of the grid `10 ^ exponent` that reads back as `word`, if there is
one; of two, the nearer, and at the same distance the even one or the upper. -/
def gridPoint? (word : Nat) (tieUp : Bool) (exponent : Int) : Option Decimal :=
  let step := 2 * Nat.pow 10 exponent.toNat * unitsOfOne
  let finer := Nat.pow 10 (-exponent).toNat
  let value := 2 * units word * finer
  let low := (units (word - 1) + units word) * finer
  let high := (units word + units (word + 1)) * finer
  let closed := word % 2 == 0
  let below := value / step
  let above := below + 1
  let belowFits := low < below * step || (closed && low == below * step)
  let aboveFits := above * step < high || (closed && above * step == high)
  let takeAbove := match compare (above * step - value) (value - below * step) with
    | .lt => true
    | .eq => tieUp || below % 2 == 1
    | .gt => false
  if belowFits && !(aboveFits && takeAbove) then some ⟨below, exponent⟩
  else if aboveFits then some ⟨above, exponent⟩
  else none

/-- The least decimal with no trailing zero digit, given enough steps. -/
def Decimal.strip (d : Decimal) : Nat → Decimal
  | 0 => d
  | steps + 1 =>
    if d.digits % 10 = 0 then strip ⟨d.digits / 10, d.exponent + 1⟩ steps else d

/-- The shortest decimal of a word that stands for a positive finite number;
seventeen digits always suffice. -/
def shortest (word : Nat) (tieUp : Bool) : Decimal :=
  let top := decade (units word)
  match (List.range 17).findSome? fun more => gridPoint? word tieUp (top - (more : Nat)) with
  | some d => d.strip 17
  | none => ⟨units word, -1074⟩

end FederatedJoin.Double
