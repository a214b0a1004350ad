/-!
# Binary floating point numbers as exact values

A float is a dyadic rational, an infinity or not a number. `classify` takes its bits apart, and
`nearest` finds the float closest to a quotient of natural numbers, ties to even. Everything that
must be exact about floats is computed on these natural numbers.
-/

namespace DataQuality.Number

/-- The value `(-1)^negative · significand · 2^exponent`. -/
structure Dyadic where
  negative : Bool
  significand : Nat
  exponent : Int
  deriving DecidableEq, Repr

/-- What a float stands for. -/
inductive FloatClass where
  | notANumber
  | infinite (negative : Bool)
  | finite (value : Dyadic)
  deriving DecidableEq, Repr

/-- The bits of positive infinity. -/
def infinityBits : Nat := 0x7FF * Nat.pow 2 52

/-- The value of finite bits without their sign: below `2^52` the significand itself, above it
the significand with its hidden bit. -/
def magnitude (bits : Nat) : Nat × Int :=
  let hiddenBit := Nat.pow 2 52
  if bits / hiddenBit = 0 then (bits, -1074)
  else (bits % hiddenBit + hiddenBit, (bits / hiddenBit : Nat) - 1075)

/-- The bit of the sign. -/
def signBit : Nat := Nat.pow 2 63

/-- The sign, and the bits without it. -/
def splitSign (x : Float) : Bool × Nat :=
  let bits := x.toBits.toNat
  (signBit ≤ bits, bits % signBit)

/-- What the float stands for. -/
def classify (x : Float) : FloatClass :=
  let (negative, bits) := splitSign x
  if bits = infinityBits then .infinite negative
  else if infinityBits < bits then .notANumber
  else
    let (significand, exponent) := magnitude bits
    .finite ⟨negative, significand, exponent⟩

/-- The quotient rounded to the nearest natural number, ties to even. -/
def roundHalfEven (num den : Nat) : Nat :=
  let q := num / den
  let twice := 2 * (num % den)
  if den < twice || (twice == den && q % 2 == 1) then q + 1 else q

/-- `num / den` scaled by `2^(-exponent)`, as a quotient of natural numbers. -/
def scaled (num den : Nat) (exponent : Int) : Nat × Nat :=
  if 0 ≤ exponent then (num, den * Nat.pow 2 exponent.toNat)
  else (num * Nat.pow 2 (-exponent).toNat, den)

/-- The exponent of the last significand bit that `num / den` keeps: 53 bits are kept, fewer
below the normal range. -/
def lastBitExponent (num den : Nat) : Int :=
  let guess : Int := (Nat.log2 num : Int) - Nat.log2 den - 53
  let (n, d) := scaled num den guess
  max (if n / d < Nat.pow 2 53 then guess else guess + 1) (-1074)

/-- The bits of the float nearest to `num / den`, ties to even, infinity when too large. A carry
out of the significand moves on to the exponent by itself. -/
def nearestBits (num den : Nat) : Nat :=
  if num = 0 then 0
  else
    let exponent := lastBitExponent num den
    let (n, d) := scaled num den exponent
    min ((exponent + 1074).toNat * Nat.pow 2 52 + roundHalfEven n d) infinityBits

/-- The float with these bits and this sign. -/
def ofMagnitude (negative : Bool) (bits : Nat) : Float :=
  Float.ofBits (UInt64.ofNat (if negative then bits + signBit else bits))

/-- The float nearest to `± num / den`. -/
def nearest (negative : Bool) (num den : Nat) : Float := ofMagnitude negative (nearestBits num den)

/-- The float nearest to an integer. -/
def ofInt (i : Int) : Float := nearest (i < 0) i.natAbs 1

/-- Positive infinity. -/
def infinity : Float := ofMagnitude false infinityBits

/-- Negative infinity. -/
def negativeInfinity : Float := ofMagnitude true infinityBits

/-- Not a number. -/
def notANumber : Float := Float.ofBits 0x7FF8000000000000

/-- The integer that a dyadic value is, when it is one. -/
def Dyadic.toInt? (v : Dyadic) : Option Int :=
  let signed (n : Nat) : Int := if v.negative then -(n : Int) else n
  if 0 ≤ v.exponent then some (signed (v.significand * Nat.pow 2 v.exponent.toNat))
  else
    let unit := Nat.pow 2 (-v.exponent).toNat
    if v.significand % unit = 0 then some (signed (v.significand / unit)) else none

/-- The integer that a float is, when it is finite and whole. -/
def toInt? (x : Float) : Option Int :=
  match classify x with
  | .finite v => v.toInt?
  | _ => none

/-- Whether the float is neither infinite nor not a number. -/
def isFinite (x : Float) : Bool :=
  match classify x with
  | .finite _ => true
  | _ => false

/-- The smallest 64-bit integer. -/
def minInt64 : Int := -(Nat.pow 2 63 : Nat)

/-- The largest 64-bit integer. -/
def maxInt64 : Int := (Nat.pow 2 63 : Nat) - 1

/-- The nearest 64-bit integer. -/
def clampInt64 (i : Int) : Int := max minInt64 (min i maxInt64)

/-- A rounded quotient is within one half of the exact one. -/
theorem roundHalfEven_near {num den : Nat} (h : 0 < den) :
    2 * (roundHalfEven num den * den) ≤ 2 * num + den ∧
      2 * num ≤ 2 * (roundHalfEven num den * den) + den := by
  have hd := Nat.div_add_mod num den
  have hm := Nat.mod_lt num h
  have hc : num / den * den = den * (num / den) := Nat.mul_comm _ _
  simp only [roundHalfEven]
  split
  · next hu =>
    simp only [Bool.or_eq_true, decide_eq_true_eq, Bool.and_eq_true, beq_iff_eq] at hu
    rw [Nat.add_mul, Nat.one_mul]
    omega
  · next hu =>
    simp only [Bool.or_eq_true, decide_eq_true_eq, Bool.and_eq_true, beq_iff_eq, not_or,
      not_and] at hu
    omega

/-- A whole quotient is not changed by rounding. -/
theorem roundHalfEven_mul (n : Nat) {den : Nat} (h : 0 < den) :
    roundHalfEven (n * den) den = n := by
  have h0 : n * den % den = 0 := Nat.mul_mod_left n den
  have hq : n * den / den = n := Nat.mul_div_cancel n h
  have hne : ¬ 0 = den := by omega
  simp [roundHalfEven, h0, hq, hne]

end DataQuality.Number
