import DataQuality.Json.Place
import DataQuality.Text.Read

/-!
# Numbers in JSON texts

A number without point and exponent is an integer as long as it fits 64 bits; all others are
floats. The digits of a float are gathered as long as they fit 64 bits, and one multiplication or
division by a power of ten follows, so the float may be a neighbour of the nearest one.
-/

namespace DataQuality.Json

open Number (Numeral)
open Text (Read Left)

/-- How the float of a numeral is found, unless it is out of range. -/
abbrev FloatRule := Numeral → Option Float

namespace FloatRule

/-- The nearest float. -/
def nearest : FloatRule := fun n ↦ some (n.value.toFloat false) |>.filter Number.isFinite

/-- The bound that gathered digits stay below. -/
def gatherBound : Nat := Nat.pow 2 64

/-- Appends digits to a natural number as long as it stays below the bound; the digits left over
come second. -/
def gather (n : Nat) : List Char → Nat × List Char
  | [] => (n, [])
  | d :: rest =>
    let m := 10 * n + Number.digitValue d
    if m < gatherBound then gather m rest else (n, d :: rest)

/-- The largest power of ten that is a finite float. -/
def largestPower : Nat := 308

/-- A power of ten. -/
def powerOfTen (e : Nat) : Float := Number.ofInt (Nat.pow 10 e)

/-- A float divided by a power of ten, the largest ones first. -/
def divide (x : Float) (e : Nat) : Float :=
  if e ≤ largestPower then x / powerOfTen e
  else if x == 0.0 then x
  else divide (x / powerOfTen largestPower) (e - largestPower)
termination_by e
decreasing_by simp only [largestPower] at *; omega

/-- A float multiplied by a power of ten. -/
def multiply? (x : Float) (e : Nat) : Option Float :=
  if e ≤ largestPower then some (x * powerOfTen e) |>.filter Number.isFinite
  else if x == 0.0 then some x
  else none

/-- The gathered digits scaled by their power of ten. Digits of the whole part that are left over
count for the exponent only, and those of the fraction not at all. -/
def scaled : FloatRule := fun n ↦
  let (whole, dropped) := gather 0 n.whole
  let (significand, ignored) := gather whole n.fraction
  let exponent := n.exponent + dropped.length - (n.fraction.length - ignored.length : Nat)
  if 0 ≤ exponent then multiply? (Number.ofInt significand) exponent.toNat
  else some (divide (Number.ofInt significand) (-exponent).toNat)

end FloatRule

/-- A number as it is written: the digits of its whole part, of its fraction and of its exponent. -/
structure WrittenNumber where
  negative : Bool
  whole : List Char
  fraction : Option (List Char)
  exponent : Option (Bool × List Char)

namespace WrittenNumber

/-- The numeral without its sign. -/
def numeral (w : WrittenNumber) : Numeral :=
  let exponent : Int := match w.exponent with
    | some (true, digits) => -(Number.digitsValue digits : Int)
    | some (false, digits) => Number.digitsValue digits
    | none => 0
  ⟨w.whole, w.fraction.getD [], exponent⟩

/-- The integer, if the number is one that fits 64 bits; a negative zero is none. -/
def integer? (w : WrittenNumber) : Option Int :=
  if w.fraction.isSome || w.exponent.isSome then none
  else
    let n := Number.digitsValue w.whole
    if w.negative then
      if 0 < n ∧ n ≤ Nat.pow 2 63 then some (-(n : Int)) else none
    else if n < Nat.pow 2 64 then some (n : Int) else none

/-- The value, unless it is out of range. -/
def value? (rule : FloatRule) (w : WrittenNumber) : Option Leaf :=
  match w.integer? with
  | some i => some (.int i)
  | none => (rule w.numeral).map fun x ↦ .float (if w.negative then -x else x)

end WrittenNumber

/-- The largest exponent that is counted. -/
def largestExponent : Nat := Nat.pow 2 31 - 1

/-- How many digits of an exponent are read until it is too large, all of them if it is not. -/
def countedDigits (n : Nat) : List Char → Nat
  | [] => 0
  | d :: rest =>
    let m := 10 * n + Number.digitValue d
    if largestExponent < m then 1 else countedDigits m rest + 1

/-- Splits off the digits that characters start with; there is at least one. -/
def readDigits (cs : List Char) : Except (Fault Place) (Read (List Char) cs) :=
  match cs with
  | [] => .error (fault "EOF while parsing a value" (.before []))
  | d :: rest =>
    if Text.isDigit d then
      .ok ⟨d :: rest.takeWhile Text.isDigit, rest.dropWhile Text.isDigit,
        Text.length_dropWhile_lt Text.isDigit d rest⟩
    else .error (fault "invalid number" (.behind (d :: rest)))

/-- Reads the whole part of a number, which has no superfluous zero. -/
def readWhole (cs : List Char) : Except (Fault Place) (Read (List Char) cs) :=
  match cs with
  | '0' :: d :: rest =>
    if Text.isDigit d then .error (fault "invalid number" (.behind (d :: rest)))
    else .ok ⟨['0'], d :: rest, Nat.lt_succ_self _⟩
  | cs => readDigits cs

/-- Reads the fraction of a number behind its point, if there is one. -/
def readFraction (cs : List Char) :
    Except (Fault Place) (Option (List Char) × Left cs) :=
  match cs with
  | '.' :: rest => (readDigits rest).map fun r ↦ (some r.value, r.left.behind)
  | cs => .ok (none, .all cs)

/-- Splits off an optional sign. -/
def spanSign : List Char → Bool × List Char
  | '-' :: rest => (true, rest)
  | '+' :: rest => (false, rest)
  | rest => (false, rest)

theorem length_spanSign_le (cs : List Char) : (spanSign cs).2.length ≤ cs.length := by
  unfold spanSign
  split <;> simp

/-- Reads the exponent of a number behind its mark, if there is one. -/
def readExponent (cs : List Char) :
    Except (Fault Place) (Option (Bool × List Char) × Left cs) :=
  match cs with
  | c :: rest =>
    if c = 'e' ∨ c = 'E' then
      (readDigits (spanSign rest).2).map fun r ↦
        (some ((spanSign rest).1, r.value), (r.widen (length_spanSign_le rest)).left.behind)
    else .ok (none, .all (c :: rest))
  | [] => .ok (none, .all [])

/-- Where a number turns out to be out of range: behind it, or behind the digit that makes its
exponent too large to count. -/
def outOfRangePlace (w : WrittenNumber) (rest : List Char) : Place :=
  match w.exponent with
  | some (_, digits) => .before (digits.drop (countedDigits 0 digits) ++ rest)
  | none => .before rest

/-- Reads a number behind its sign. -/
def readUnsigned (rule : FloatRule) (negative : Bool) (cs : List Char) :
    Except (Fault Place) (Read Leaf cs) :=
  (readWhole cs).bind fun whole ↦
    (readFraction whole.rest).bind fun (fraction, afterFraction) ↦
      (readExponent afterFraction.val).bind fun (exponent, rest) ↦
        let w : WrittenNumber := ⟨negative, whole.value, fraction, exponent⟩
        match w.value? rule with
        | some v =>
          .ok ⟨v, rest.val, by
            have := whole.shorter
            have := afterFraction.property
            have := rest.property
            omega⟩
        | none => .error (fault "number out of range" (outOfRangePlace w rest.val))

/-- Reads a number. -/
def readNumber (rule : FloatRule) (cs : List Char) : Except (Fault Place) (Read Leaf cs) :=
  match cs with
  | '-' :: rest => (readUnsigned rule true rest).map Read.behind
  | cs => readUnsigned rule false cs

end DataQuality.Json
