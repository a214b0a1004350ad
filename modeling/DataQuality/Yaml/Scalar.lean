import DataQuality.Document.Flaw
import DataQuality.Text.Hex

/-!
# Scalars of YAML documents

A scalar is a text with a style and perhaps a tag. Only the place of a plain scalar decides whether
it is a number, a text or nothing at all; where the place leaves it open, the scalar is what it
looks like.
-/

namespace DataQuality.Yaml

/-- How a scalar was written: as it is, in quotes or folded, or line by line as it is. -/
inductive Style where
  | plain
  | quoted
  | literal
  deriving DecidableEq, Repr, Inhabited

/-- A scalar. -/
structure Scalar where
  text : String
  style : Style
  tag : Option String
  deriving DecidableEq, Repr, Inhabited

namespace Tag

/-- What the tags of the common kinds of scalars begin with. -/
def common : String := "tag:yaml.org,2002:"

/-- The tag of missing values. -/
def null : String := common ++ "null"

/-- The tag of truth values. -/
def bool : String := common ++ "bool"

/-- The tag of integers. -/
def int : String := common ++ "int"

/-- The tag of floats. -/
def float : String := common ++ "float"

/-- The name in a tag that is local to a document. -/
def localName? (tag : Option String) : Option String :=
  tag.bind fun t ↦ match t.toList with
    | '!' :: name => some (String.ofList name)
    | _ => none

end Tag

namespace Scalar

/-- The words that stand for nothing. -/
def nullWords : List String := ["~", "null", "Null", "NULL"]

/-- The words that are truth values. -/
def truthWords : List (String × Bool) :=
  [("true", true), ("True", true), ("TRUE", true), ("false", false), ("False", false),
    ("FALSE", false)]

/-- Whether digits begin with a superfluous zero, which makes them a text. -/
def hasLeadingZero : List Char → Bool
  | '0' :: c :: rest => (c :: rest).all Text.isDigit
  | _ => false

/-- The natural number of characters, which may show their base in front. -/
def natural? (cs : List Char) : Option Nat :=
  match cs with
  | '0' :: 'x' :: rest => Text.naturalIn? 16 rest
  | '0' :: 'o' :: rest => Text.naturalIn? 8 rest
  | '0' :: 'b' :: rest => Text.naturalIn? 2 rest
  | cs => if hasLeadingZero cs then none else Text.naturalIn? 10 cs

/-- The natural number of a word, which may have a plus sign in front. -/
def wordNatural? (word : String) : Option Nat :=
  match word.toList with
  | '+' :: rest => natural? rest
  | cs => natural? cs

/-- The widest integers that words stand for: natural numbers below `2^128` and negative ones from
`-2^127`. -/
def fitsWide (i : Int) : Bool := -(Nat.pow 2 127 : Nat) ≤ i && i < (Nat.pow 2 128 : Nat)

/-- Whether an integer fits 64 bits, with a sign or without. -/
def fitsWord (i : Int) : Bool := Number.minInt64 ≤ i && i < (Nat.pow 2 64 : Nat)

/-- The integer of a word. -/
def wordInt? (word : String) : Option Int :=
  let value? := match word.toList with
    | '-' :: rest => (natural? rest).map fun n ↦ -(n : Int)
    | _ => (wordNatural? word).map Int.ofNat
  value?.filter fitsWide

/-- The spellings of floats without digits. -/
def specialFloats : List (String × Float) :=
  [(".inf", Number.infinity), (".Inf", Number.infinity), (".INF", Number.infinity),
    ("+.inf", Number.infinity), ("+.Inf", Number.infinity), ("+.INF", Number.infinity),
    ("-.inf", Number.negativeInfinity), ("-.Inf", Number.negativeInfinity),
    ("-.INF", Number.negativeInfinity), (".nan", Number.notANumber), (".NaN", Number.notANumber),
    (".NAN", Number.notANumber)]

/-- The float of a word. -/
def wordFloat? (word : String) : Option Float :=
  match specialFloats.lookup word with
  | some x => some x
  | none => (Number.parseFloat? word).filter Number.isFinite

/-- What is found in an integer. -/
def foundInteger (i : Int) : Found := if fitsWord i then .integer i else .wideInteger i

/-- The characters of a word without its sign. -/
def unsigned (word : String) : List Char :=
  match word.toList with
  | '+' :: rest | '-' :: rest => rest
  | cs => cs

/-- What a word stands for if nothing else is known of it. -/
def foundWord (word : String) : Found :=
  if word.isEmpty || nullWords.contains word then .nothing
  else match truthWords.lookup word with
    | some b => .truth b
    | none =>
      match wordInt? word with
      | some i => foundInteger i
      | none =>
        if hasLeadingZero (unsigned word) then .text word
        else match wordFloat? word with
          | some x => .float x
          | none => .text word

/-- What a word stands for by its tag. -/
def demanded (word expected : String) (found? : Option Found) : Except Flaw Found :=
  match found? with
  | some found => .ok found
  | none => .error (.wrongValue (.text word) expected)

/-- What a scalar stands for where its place leaves it open. -/
def found (s : Scalar) : Except Flaw Found :=
  if s.tag = some Tag.bool then
    demanded s.text "a boolean" ((truthWords.lookup s.text).map .truth)
  else if s.tag = some Tag.int then
    demanded s.text "an integer" ((wordInt? s.text).map foundInteger)
  else if s.tag = some Tag.float then
    demanded s.text "a float" ((wordFloat? s.text).map .float)
  else if s.tag = some Tag.null then
    demanded s.text "null" (if nullWords.contains s.text then some .nothing else none)
  else if s.style = .plain ∧ (s.tag.isNone ∨ (Tag.localName? s.tag).isSome) then
    .ok (foundWord s.text)
  else .ok (.text s.text)

/-- Whether the text is read as a number where one is expected: a plain scalar is, whatever its
tag, and a literal one by its tag. -/
def mayBe (s : Scalar) (tag : String) : Bool :=
  s.style = .plain || (s.style = .literal && s.tag = some tag)

/-- Whether nothing was written. -/
def isVoid (s : Scalar) : Bool := s.style = .plain && s.text.isEmpty

/-- Whether the scalar leaves out an optional value. -/
def isAbsent (s : Scalar) : Except Flaw Bool :=
  if s.style ≠ .plain then .ok false
  else if s.tag.isNone then .ok (s.text.isEmpty || nullWords.contains s.text)
  else if s.tag = some Tag.null then
    if nullWords.contains s.text then .ok true else .error (.wrongValue (.text s.text) "null")
  else .ok false

end Scalar

end DataQuality.Yaml
