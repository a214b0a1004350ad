import DataQuality.Number.Binary

/-!
# Shortest decimals

The decimal with the fewest digits that reads back as a given float. For one digit, two digits
and so on, the two neighbours of the exact value on that decimal grid are tried; the first grid
with a neighbour that reads back wins, and of two the nearer is taken. Only an exact tie is a
matter of taste, and the caller's `TieRule` settles it.
-/

namespace DataQuality.Number

/-- The value `digits · 10^exponent`. -/
structure Decimal where
  digits : Nat
  exponent : Int
  deriving DecidableEq, Repr

/-- Which of two equally near decimals is taken. -/
inductive TieRule where
  | up
  | even
  deriving DecidableEq, Repr

/-- `num / den` scaled by `10^(-exponent)`, as a quotient of natural numbers. -/
def scaledDecimal (num den : Nat) (exponent : Int) : Nat × Nat :=
  if 0 ≤ exponent then (num, den * Nat.pow 10 exponent.toNat)
  else (num * Nat.pow 10 (-exponent).toNat, den)

/-- The bits of the float nearest to a decimal. Exponents far outside the range of floats are
settled without computing the power of ten. -/
def Decimal.nearestBits (d : Decimal) : Nat :=
  if d.digits = 0 then 0
  else if 310 < d.exponent then infinityBits
  else if (Nat.log2 d.digits : Int) + 1 + 3 * d.exponent < -1100 then 0
  else if 0 ≤ d.exponent then Number.nearestBits (d.digits * Nat.pow 10 d.exponent.toNat) 1
  else Number.nearestBits d.digits (Nat.pow 10 (-d.exponent).toNat)

/-- The float nearest to a decimal, ties to even. -/
def Decimal.toFloat (negative : Bool) (d : Decimal) : Float := ofMagnitude negative d.nearestBits

/-- The decimal digits of a natural number, none for zero. -/
def digitCount (n : Nat) : Nat := if n = 0 then 0 else (Nat.toDigits 10 n).length

/-- How many zeros follow the decimal point of `num / den < 1`, looked for up to a limit. -/
def leadingZeros (num den : Nat) : (limit : Nat) → Nat
  | 0 => 0
  | limit + 1 => if den ≤ num * 10 then 0 else leadingZeros (num * 10) den limit + 1

/-- The number of digits before the decimal point of `num / den`; zeros after the point count
below zero. -/
def pointPosition (num den : Nat) : Int :=
  if den ≤ num then digitCount (num / den) else -(leadingZeros num den 400 : Int)

/-- The nearer of the two neighbours of `num / den` among those that qualify. -/
def nearerNeighbour (tie : TieRule) (num den : Nat) (qualifies : Nat → Bool) : Option Nat :=
  let below := num / den
  let twice := 2 * (num % den)
  match qualifies below, qualifies (below + 1) with
  | false, false => none
  | true, false => some below
  | false, true => some (below + 1)
  | true, true =>
    if twice < den then some below
    else if den < twice then some (below + 1)
    else match tie with
      | .up => some (below + 1)
      | .even => some (if below % 2 = 0 then below else below + 1)

/-- The decimal on the grid of `count` digits that reads back as `bits`, if there is one. -/
def onGrid (tie : TieRule) (num den bits : Nat) (point : Int) (count : Nat) : Option Decimal :=
  let exponent := point - count
  let (n, d) := scaledDecimal num den exponent
  (nearerNeighbour tie n d fun q ↦ (Decimal.mk q exponent).nearestBits == bits).map
    fun q ↦ ⟨q, exponent⟩

/-- The decimal expansion of a binary value, in full. -/
def exactDecimal (significand : Nat) (exponent : Int) : Decimal :=
  if 0 ≤ exponent then ⟨significand * Nat.pow 2 exponent.toNat, 0⟩
  else ⟨significand * Nat.pow 5 (-exponent).toNat, exponent⟩

/-- The same value without trailing zero digits, looked for up to a limit. -/
def Decimal.strip (d : Decimal) : (limit : Nat) → Decimal
  | 0 => d
  | limit + 1 =>
    if d.digits ≠ 0 ∧ d.digits % 10 = 0 then
      (Decimal.mk (d.digits / 10) (d.exponent + 1)).strip limit
    else d

/-- The shortest decimal that reads back as the value, its digits ending in no zero. Seventeen
digits always suffice; the full expansion stands behind them. -/
def shortest (tie : TieRule) (significand : Nat) (exponent : Int) : Decimal :=
  let (num, den) := scaled significand 1 (-exponent)
  let bits := nearestBits num den
  let point := pointPosition num den
  let found := (List.range 17).findSome? fun i ↦ onGrid tie num den bits point (i + 1)
  let d := found.getD (exactDecimal significand exponent)
  d.strip (digitCount d.digits)

end DataQuality.Number
