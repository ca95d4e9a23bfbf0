/-!
Binary64 numbers in exact arithmetic. A finite number is `± significand · 2 ^ exponent` in its
normal form, and every operation rounds its exact result once: to the nearest number, a tie to the
even significand.
-/
namespace ToolGrammar.Decimal

inductive Binary64 where
  | finite (negative : Bool) (significand : Nat) (exponent : Int)
  | infinite (negative : Bool)
  | nan
  deriving DecidableEq, Repr

namespace Binary64

/-- The least exponent: the distance between neighbours never falls below `2 ^ (-1074)`. -/
def leastExponent : Int := -1074

/-- The greatest exponent: what does not fit below it is infinite. -/
def greatestExponent : Int := 971

/-- A significand has 53 binary digits at most. -/
def significandBound : Nat :=
  Nat.pow 2 53

/-- The least significand that has 53 binary digits. -/
def leastFull : Nat :=
  Nat.pow 2 52

def zero (negative : Bool) : Binary64 :=
  .finite negative 0 leastExponent

/-- The quotient rounded to the nearest whole number, a half to the even one. -/
def divideToEven (num den : Nat) : Nat :=
  let floor := num / den
  let twice := 2 * (num % den)
  if twice < den || twice == den && floor % 2 == 0 then floor else floor + 1

def inUnits (num den : Nat) (exponent : Int) : Nat × Nat :=
  if 0 ≤ exponent then (num, den * Nat.pow 2 exponent.toNat)
  else (num * Nat.pow 2 (-exponent).toNat, den)

/-- The exponent at which the floor of a positive quotient has 53 binary digits, or the least
exponent. -/
def unitExponent (num den : Nat) : Int :=
  let guess : Int := (Nat.log2 num : Int) - Nat.log2 den - 53
  let units := inUnits num den guess
  let tight := if significandBound ≤ units.1 / units.2 then guess + 1 else guess
  max tight leastExponent

def nearest (negative : Bool) (num den : Nat) : Binary64 :=
  if num = 0 then zero negative
  else
    let exponent := unitExponent num den
    let units := inUnits num den exponent
    let rounded := divideToEven units.1 units.2
    let (significand, exponent) :=
      if rounded = significandBound then (leastFull, exponent + 1) else (rounded, exponent)
    if greatestExponent < exponent then .infinite negative
    else .finite negative significand exponent

def ofNat (n : Nat) : Binary64 :=
  nearest false n 1

def ofInt (n : Int) : Binary64 :=
  nearest (n < 0) n.natAbs 1

/-- More than the powers of ten between the least positive number and the greatest finite one. -/
def greatestScale : Nat := 400

/-- The number nearest to `digits · 10 ^ exponent`. What is far beyond the range on either side is
settled without its power. -/
def ofDecimal (negative : Bool) (digits : Nat) (exponent : Int) : Binary64 :=
  let scale := (Nat.toDigits 10 digits).length + exponent
  if digits = 0 ∨ scale < -greatestScale then zero negative
  else if greatestScale < scale then .infinite negative
  else if 0 ≤ exponent then nearest negative (digits * Nat.pow 10 exponent.toNat) 1
  else nearest negative digits (Nat.pow 10 (-exponent).toNat)

def fraction (significand : Nat) (exponent : Int) : Nat × Nat :=
  if 0 ≤ exponent then (significand * Nat.pow 2 exponent.toNat, 1)
  else (significand, Nat.pow 2 (-exponent).toNat)

def negate : Binary64 → Binary64
  | .finite negative significand exponent => .finite (!negative) significand exponent
  | .infinite negative => .infinite (!negative)
  | .nan => .nan

def times : Binary64 → Binary64 → Binary64
  | .finite negative m e, .finite _ n f =>
      let left := fraction m e
      let right := fraction n f
      nearest negative (left.1 * right.1) (left.2 * right.2)
  | .infinite negative, _ => .infinite negative
  | _, _ => .nan

def dividedBy : Binary64 → Binary64 → Binary64
  | .finite negative m e, .finite _ n f =>
      let left := fraction m e
      let right := fraction n f
      nearest negative (left.1 * right.2) (left.2 * right.1)
  | .infinite negative, _ => .infinite negative
  | _, _ => .nan

/-- The sum; a sum of zeros is negative only when both are. -/
def plus : Binary64 → Binary64 → Binary64
  | .finite negative m e, .finite negative' n f =>
      let left := fraction m e
      let right := fraction n f
      let signed (negative : Bool) (n : Nat) : Int := if negative then -n else n
      let sum := signed negative (left.1 * right.2) + signed negative' (right.1 * left.2)
      if sum = 0 then zero (negative && negative')
      else nearest (sum < 0) sum.natAbs (left.2 * right.2)
  | .infinite negative, .infinite negative' =>
      if negative = negative' then .infinite negative else .nan
  | .infinite negative, .finite .. | .finite .., .infinite negative => .infinite negative
  | .nan, _ | _, .nan => .nan

/-- Numerical equality: the two zeros are equal, and what is no number equals nothing. -/
def same : Binary64 → Binary64 → Bool
  | .finite negative m e, .finite negative' n f =>
      m == 0 && n == 0 || negative == negative' && m == n && e == f
  | .infinite negative, .infinite negative' => negative == negative'
  | _, _ => false

end Binary64

end ToolGrammar.Decimal
