import ToolGrammar.Decimal.Binary64

namespace ToolGrammar.Decimal

structure Digits where
  digits : Nat
  exponent : Int
  deriving DecidableEq, Repr

/-- Reals that round to a positive finite number: from `low` to `high` in units of
`2 ^ exponent / 4`, both ends included when the significand is even. -/
structure RoundingInterval where
  low : Nat
  value : Nat
  high : Nat
  exponent : Int
  closed : Bool

def RoundingInterval.around (significand : Nat) (exponent : Int) : RoundingInterval where
  low :=
    if significand = Binary64.leastFull ∧ Binary64.leastExponent < exponent then 4 * significand - 1
    else 4 * significand - 2
  value := 4 * significand
  high := 4 * significand + 2
  exponent := exponent - 2
  closed := significand % 2 == 0

/-- A quantity of quarter units as a number of steps of `10 ^ place`, a fraction. -/
def RoundingInterval.steps (interval : RoundingInterval) (quarters : Nat) (place : Int) :
    Nat × Nat :=
  let units := Binary64.fraction quarters interval.exponent
  if 0 ≤ place then (units.1, units.2 * Nat.pow 10 place.toNat)
  else (units.1 * Nat.pow 10 (-place).toNat, units.2)

def RoundingInterval.holds (interval : RoundingInterval) (decimal : Digits) : Bool :=
  let low := interval.steps interval.low decimal.exponent
  let high := interval.steps interval.high decimal.exponent
  if interval.closed then low.1 ≤ decimal.digits * low.2 && decimal.digits * high.2 ≤ high.1
  else low.1 < decimal.digits * low.2 && decimal.digits * high.2 < high.1

def leadingPlace (num den : Nat) : Int :=
  if den ≤ num then ((Nat.toDigits 10 (num / den)).length : Int) - 1
  else
    let scaled := Nat.toDigits 10 (den / num)
    let place : Int := -((scaled.length : Int) - 1)
    if num * Nat.pow 10 (scaled.length - 1) < den then place - 1 else place

/-- The neighbour of the number on the grid of `10 ^ place` that rounds back to it, the nearer one
when both do. -/
def RoundingInterval.onGrid? (interval : RoundingInterval) (place : Int) : Option Digits :=
  let exact := interval.steps interval.value place
  let below : Digits := ⟨exact.1 / exact.2, place⟩
  let above : Digits := ⟨exact.1 / exact.2 + 1, place⟩
  let twice := 2 * (exact.1 % exact.2)
  let nearer :=
    if twice < exact.2 || twice == exact.2 && below.digits % 2 == 0 then below else above
  let farther := if nearer = below then above else below
  if interval.holds nearer then some nearer
  else if interval.holds farther then some farther
  else none

/-- The first grid with a hit, from the leading digit's place downwards; seventeen digits always
suffice. -/
def RoundingInterval.shortestFrom (interval : RoundingInterval) (place : Int) : Nat → Digits
  | 0 =>
      let exact := interval.steps interval.value place
      ⟨exact.1 / exact.2, place⟩
  | more + 1 =>
      match interval.onGrid? place with
      | some decimal => decimal
      | none => interval.shortestFrom (place - 1) more

def shortestDigits (significand : Nat) (exponent : Int) : Digits :=
  let units := Binary64.fraction significand exponent
  (RoundingInterval.around significand exponent).shortestFrom (leadingPlace units.1 units.2) 17

/-- How a decimal is written: positional notation while the point stands after at least
`leastPoint` and at most `greatestPoint` digits, counted from the first one, and otherwise an
exponent, whose plus sign may be written or not. -/
structure Style where
  leastPoint : Int
  greatestPoint : Int
  plusSign : Bool

def zeros (count : Nat) : List Char :=
  List.replicate count '0'

def significantDigits (n : Nat) : List Char :=
  ((Nat.toDigits 10 n).reverse.dropWhile (· == '0')).reverse

/-- The text of a positive decimal. A whole number keeps one decimal place. -/
def Style.write (style : Style) (decimal : Digits) : List Char :=
  let digits := significantDigits decimal.digits
  let point : Int := (Nat.toDigits 10 decimal.digits).length + decimal.exponent
  if style.leastPoint ≤ point ∧ point ≤ style.greatestPoint then
    if point ≤ 0 then '0' :: '.' :: zeros (-point).toNat ++ digits
    else
      let whole := digits.take point.toNat
      let places := digits.drop point.toNat
      whole ++ zeros (point.toNat - whole.length) ++
        '.' :: (if places.isEmpty then ['0'] else places)
  else
    let power := point - 1
    let places := digits.drop 1
    let sign := if power < 0 then ['-'] else if style.plusSign then ['+'] else []
    digits.take 1 ++ (if places.isEmpty then [] else '.' :: places) ++
      'e' :: sign ++ Nat.toDigits 10 power.natAbs

/-- The text of a number. What is no finite number has none. -/
def Style.text? (style : Style) : Binary64 → Option String
  | .finite negative significand exponent =>
      let magnitude :=
        if significand = 0 then ['0', '.', '0']
        else style.write (shortestDigits significand exponent)
      some (String.ofList (if negative then '-' :: magnitude else magnitude))
  | .infinite _ | .nan => none

end ToolGrammar.Decimal
