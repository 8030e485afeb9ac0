-- SUMMARY: Binary64 numbers as their words: sign, order and exact magnitude.

/-!
# Doubles

A double is its 64-bit word. Comparison never leaves the word: below the sign
bit, words order the magnitudes they stand for, so a signed word is an order
key. The exact value of a finite word is a whole number of `2 ^ -1074`.
-/

namespace FederatedJoin

structure Double where
  bits : UInt64
  deriving DecidableEq, Inhabited

namespace Double

/-- The number of words that share one exponent. -/
def binade : Nat := 4503599627370496

/-- The least word below the sign bit that stands for no finite number. -/
def infinity : Nat := 2047 * binade

def signBit : Nat := 9223372036854775808

def isNegative (x : Double) : Bool := signBit ≤ x.bits.toNat

/-- The word without its sign. -/
def magnitude (x : Double) : Nat := x.bits.toNat % signBit

def isFinite (x : Double) : Bool := x.magnitude < infinity

def isNaN (x : Double) : Bool := infinity < x.magnitude

def ofMagnitude (negative : Bool) (word : Nat) : Double :=
  ⟨UInt64.ofNat (if negative then signBit + word else word)⟩

/-- Below the sign bit, the number of `2 ^ -1074` in the value that a word stands for. -/
def units (word : Nat) : Nat :=
  if word < binade then word
  else (binade + word % binade) * Nat.pow 2 (word / binade - 1)

/-- The number of `2 ^ -1074` in one. -/
def unitsOfOne : Nat := Nat.pow 2 1074

/-! ## Order -/

/-- An order key: both zeros have the key `0`. -/
def rank (x : Double) : Int := if x.isNegative then -x.magnitude else x.magnitude

/-- `none` when either side is not a number. -/
def compare? (x y : Double) : Option Ordering :=
  if x.isNaN || y.isNaN then none else some (compare x.rank y.rank)

/-- Numeric equality: the two zeros are equal, and NaN equals nothing. -/
def same (x y : Double) : Bool := x.compare? y == some .eq

end Double

end FederatedJoin
