-- SUMMARY: Rounding an exact quotient to the nearest double, and reading integers and decimals.
import FederatedJoin.Double.Basic

/-!
# Rounding to the nearest double

`nearest` rounds an exact number of `2 ^ -1074` to a word, a half going to the
even word. Products, quotients, integers and decimals are all rounded by it.
-/

namespace FederatedJoin.Double

/-- The whole number nearest to `num / den`; a half goes to the even neighbour. -/
def divNearest (num den : Nat) : Nat :=
  let floor := num / den
  match compare (2 * (num % den)) den with
  | .lt => floor
  | .eq => floor + floor % 2
  | .gt => floor + 1

/-- The word nearest to `num / den` times `2 ^ -1074`. A significand that rounds
up to a power of two carries into the exponent field by itself. -/
def nearest (num den : Nat) : Nat :=
  let shift := (num / den).log2 - 52
  min (shift * binade + divNearest num (den * Nat.pow 2 shift)) infinity

/-! ## Integers -/

def ofNat (n : Nat) : Nat := nearest (n * unitsOfOne) 1

def ofInt (n : Int) : Double := ofMagnitude (n < 0) (ofNat n.natAbs)

/-! ## Decimals

A decimal is read in two steps: its significand is rounded to a double, and the
double is multiplied or divided by the double nearest to a power of ten. -/

def mul (x y : Nat) : Nat := nearest (units x * units y) unitsOfOne

def div (x y : Nat) : Nat := nearest (units x * unitsOfOne) (units y)

/-- The greatest power of ten that is a finite double. -/
def maxDecade : Nat := 308

/-- Divides by `10 ^ maxDecade` so many times, or until nothing is left. -/
def shrink (word : Nat) : Nat → Nat
  | 0 => word
  | steps + 1 => if word = 0 then 0 else shrink (div word (ofNat (Nat.pow 10 maxDecade))) steps

/-- The word for `significand * 10 ^ exponent`, or `none` when it is out of range. -/
def scale? (significand : Nat) : (exponent : Int) → Option Nat
  | .ofNat up =>
    if significand = 0 then some 0
    else if maxDecade < up then none
    else
      let word := mul (ofNat significand) (ofNat (Nat.pow 10 up))
      if word < infinity then some word else none
  | .negSucc down =>
    let steps := down / maxDecade
    let rest := down + 1 - steps * maxDecade
    some (div (shrink (ofNat significand) steps) (ofNat (Nat.pow 10 rest)))

def ofDecimal? (negative : Bool) (significand : Nat) (exponent : Int) : Option Double :=
  (scale? significand exponent).map (ofMagnitude negative)

end FederatedJoin.Double
