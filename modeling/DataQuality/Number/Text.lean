import DataQuality.Number.Shortest
import DataQuality.Text.Basic
import DataQuality.Text.Case

/-!
# Numbers as text

Two ways to write a float and the grammars by which numbers are read. Plain notation never has an
exponent; scientific notation gives very large and very small values one. Both show the fewest
digits that read back.
-/

namespace DataQuality.Number

/-- A natural number in decimal digits. -/
def natText (n : Nat) : String := String.ofList (Nat.toDigits 10 n)

/-- An integer in decimal digits, a minus sign before negative ones. -/
def intText : Int → String
  | .ofNat n => natText n
  | .negSucc n => "-" ++ natText (n + 1)

/-- `count` zeros. -/
def zeros (count : Nat) : List Char := List.replicate count '0'

/-- The digits with a point that leaves `fraction` of them behind it. -/
def withPoint (digits : List Char) (fraction : Nat) : List Char :=
  let padded := zeros (fraction + 1 - digits.length) ++ digits
  padded.take (padded.length - fraction) ++ '.' :: padded.drop (padded.length - fraction)

/-- Positional notation; a whole number has no point. -/
def Decimal.plain (d : Decimal) : List Char :=
  if d.digits = 0 then ['0']
  else if 0 ≤ d.exponent then Nat.toDigits 10 d.digits ++ zeros d.exponent.toNat
  else withPoint (Nat.toDigits 10 d.digits) (-d.exponent).toNat

/-- A minus sign, or nothing. -/
def signText (negative : Bool) : String := if negative then "-" else ""

/-- A float in plain notation: the fewest digits that read back, never an exponent, no point in
a whole number, `NaN`, `inf` and `-inf`. -/
def plainText (x : Float) : String :=
  match classify x with
  | .notANumber => "NaN"
  | .infinite negative => signText negative ++ "inf"
  | .finite v =>
    signText v.negative ++ String.ofList (shortest .up v.significand v.exponent).plain

/-- A float rounded to tenths, ties to even: one digit behind the point, and `NaN`, `inf` and `-inf`
as in plain notation. -/
def tenthsText (x : Float) : String :=
  match classify x with
  | .notANumber => "NaN"
  | .infinite negative => signText negative ++ "inf"
  | .finite v =>
    let (num, den) := scaled v.significand 1 (-v.exponent)
    let tenths := roundHalfEven (num * 10) den
    signText v.negative ++ String.ofList (withPoint (Nat.toDigits 10 tenths) 1)

/-- The exponents of the first digit for which scientific notation stays positional. -/
def positionalExponents : Int × Int := (-5, 15)

/-- An exponent mark with its sign. -/
def exponentText (e : Int) : String :=
  if 0 ≤ e then "e+" ++ natText e.toNat else "e-" ++ natText (-e).toNat

/-- Positional notation with at least one decimal for moderate exponents, else one digit before
the point and an exponent mark. -/
def Decimal.scientific (d : Decimal) : String :=
  let digits := Nat.toDigits 10 d.digits
  let first : Int := d.exponent + digits.length - 1
  if d.digits = 0 then "0.0"
  else if positionalExponents.1 ≤ first ∧ first ≤ positionalExponents.2 then
    if 0 ≤ d.exponent then String.ofList (d.plain ++ ['.', '0']) else String.ofList d.plain
  else
    let fraction := if digits.length = 1 then [] else '.' :: digits.drop 1
    String.ofList (digits.take 1 ++ fraction) ++ exponentText first

/-- A finite float in scientific notation; nothing for the others. -/
def scientificText? (x : Float) : Option String :=
  match classify x with
  | .finite v => some (signText v.negative ++ (shortest .even v.significand v.exponent).scientific)
  | _ => none

/-- The value of one decimal digit. -/
def digitValue (c : Char) : Nat := c.toNat - '0'.toNat

/-- The value of decimal digits. -/
def digitsValue (cs : List Char) : Nat := cs.foldl (fun n c ↦ 10 * n + digitValue c) 0

/-- Splits off the digits that the characters start with. -/
def spanDigits (cs : List Char) : List Char × List Char :=
  (cs.takeWhile Text.isDigit, cs.dropWhile Text.isDigit)

/-- Splits off an optional sign; a minus sign gives `true`. -/
def spanSign : List Char → Bool × List Char
  | '-' :: rest => (true, rest)
  | '+' :: rest => (false, rest)
  | rest => (false, rest)

/-- Reads an integer without bounds: an optional sign and at least one digit. -/
def parseInt? (cs : List Char) : Option Int :=
  let (negative, digits) := spanSign cs
  if digits.isEmpty || !digits.all Text.isDigit then none
  else some (if negative then -(digitsValue digits : Int) else digitsValue digits)

/-- Reads a 64-bit integer. -/
def parseInt64? (s : String) : Option Int :=
  (parseInt? s.toList).filter fun i ↦ minInt64 ≤ i && i ≤ maxInt64

/-- Why a text is no natural number up to a bound. -/
inductive NatFault where
  | nothing
  | noDigit
  | tooLarge
  deriving DecidableEq, Repr, Inhabited

/-- The message of a fault. -/
def NatFault.message : NatFault → String
  | nothing => "cannot parse integer from empty string"
  | noDigit => "invalid digit found in string"
  | tooLarge => "number too large to fit in target type"

/-- Reads the digits that follow those of a number. The first of them that is no digit, or makes
the number too large, is what is wrong. -/
def readNatFrom (bound n : Nat) : List Char → Except NatFault Nat
  | [] => .ok n
  | c :: rest =>
    if !Text.isDigit c then .error .noDigit
    else
      let m := 10 * n + digitValue c
      if bound < m then .error .tooLarge else readNatFrom bound m rest

/-- Reads a natural number up to a bound: an optional plus sign and at least one digit. -/
def readNat (bound : Nat) (s : String) : Except NatFault Nat :=
  match s.toList with
  | [] => .error .nothing
  | ['+'] => .error .noDigit
  | '+' :: rest => readNatFrom bound 0 rest
  | cs => readNatFrom bound 0 cs

/-- Reads a natural number up to a bound, or nothing. -/
def parseNat? (bound : Nat) (s : String) : Option Nat := (readNat bound s).toOption

/-- A number that is read is within its bound. -/
theorem le_of_readNatFrom {bound n m : Nat} {cs : List Char} (hn : n ≤ bound)
    (h : readNatFrom bound n cs = .ok m) : m ≤ bound := by
  induction cs generalizing n with
  | nil => cases h; exact hn
  | cons c rest ih =>
    simp only [readNatFrom] at h
    split at h
    · cases h
    · split at h
      · cases h
      · next hm => exact ih (Nat.le_of_not_lt hm) h

/-- The parts of an unsigned decimal numeral. -/
structure Numeral where
  whole : List Char
  fraction : List Char
  exponent : Int
  deriving DecidableEq, Repr

/-- The value of a numeral. -/
def Numeral.value (n : Numeral) : Decimal :=
  ⟨digitsValue (n.whole ++ n.fraction), n.exponent - n.fraction.length⟩

/-- Reads an exponent mark with its digits, or nothing at all. -/
def parseExponent? : List Char → Option Int
  | [] => some 0
  | c :: rest => if c = 'e' ∨ c = 'E' then parseInt? rest else none

/-- Reads an unsigned decimal numeral: digits with an optional point, at least one digit on one
side of it, then an optional exponent. -/
def parseNumeral? (cs : List Char) : Option Numeral :=
  let (whole, rest) := spanDigits cs
  let (fraction, rest) := match rest with
    | '.' :: rest => spanDigits rest
    | rest => ([], rest)
  if whole.isEmpty && fraction.isEmpty then none
  else (parseExponent? rest).map fun e ↦ ⟨whole, fraction, e⟩

/-- The spellings of values that have no digits, in small letters. -/
def parseSpecial? (negative : Bool) (cs : List Char) : Option Float :=
  let word := String.ofList (cs.map fun c ↦ Text.foldAscii c)
  if word == "inf" || word == "infinity" then
    some (if negative then negativeInfinity else infinity)
  else if word == "nan" then some notANumber
  else none

/-- Reads a float, correctly rounded: an optional sign, then a decimal numeral or one of
`inf`, `infinity` and `nan` in any case. -/
def parseFloat? (s : String) : Option Float :=
  let (negative, cs) := spanSign s.toList
  match parseNumeral? cs with
  | some n => some (n.value.toFloat negative)
  | none => parseSpecial? negative cs

end DataQuality.Number
