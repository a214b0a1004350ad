import DataQuality.Pattern.Mode
import DataQuality.Pattern.Property

/-!
# Escapes in regular expressions

What a backslash and the characters behind it stand for: a character, a set of characters, or a
place in the text.
-/

namespace DataQuality.Pattern

open Text (Read Left)

/-- One character or a sign that stands for several. A character given as a byte is meant as one
where there is no Unicode. -/
inductive Atom where
  | char (c : Char) (asByte : Bool)
  | oneOf (set : CharSet)
  | assertion (name : String)

/-- Reads the code of a character in braces, or else in so many digits; two digits are a byte. -/
def readCode? (m : Mode) (width : Nat) (cs : List Char) : Option (Read Atom cs) :=
  match h : m.skip cs with
  | [] => none
  | c :: rest =>
    have hlt := Mode.length_lt_of_skip h
    if c = '\x7b' then
      (readToBrace? m rest).bind fun r ↦
        (hexChar? r.value).map fun d ↦ (r.map fun _ ↦ Atom.char d false).within hlt
    else
      (readDigits? m (width - 1) rest).bind fun (digits, left) ↦
        (hexChar? (c :: digits)).map fun d ↦
          left.within hlt (.char d (width == 2))

/-- The set of the characters with a property, if there is such a property and there is Unicode. -/
def propertySet? (m : Mode) (negated : Bool) (p : CharProperty × Bool) : Option Atom :=
  if m.unicode && p.1.isKnown then
    some (.oneOf (.negatedIf (negated != p.2) (.named (.property p.1))))
  else none

/-- Reads a property: one letter, or a name in braces. -/
def readProperty? (m : Mode) (negated : Bool) (cs : List Char) : Option (Read Atom cs) :=
  match h : m.skip cs with
  | [] => none
  | c :: rest =>
    have hlt := Mode.length_lt_of_skip h
    if c = '\x7b' then
      (readToBrace? m rest).bind fun r ↦
        (propertySet? m negated (CharProperty.ofText r.value)).map fun a ↦
          (r.map fun _ ↦ a).within hlt
    else
      (propertySet? m negated (.named (CharProperty.normalName [c]), false)).map fun a ↦
        ⟨a, rest, hlt⟩

/-- The escapes of one letter that stand for a character. -/
def letterEscapes : List (Char × Char) :=
  [('a', '\x07'), ('f', '\x0c'), ('t', '\t'), ('n', '\n'), ('r', '\r'), ('v', '\x0b')]

/-- The letters that stand for sets of characters; the capital of one stands for all others. -/
def classLetters : List Char := ['d', 's', 'w']

/-- The escapes that stand for a place in the text. -/
def assertionEscapes : List Char := ['A', 'z', 'b', 'B', '<', '>']

/-- Whether a backslash makes the character stand for itself. -/
def isEscapable (c : Char) : Bool := c.toNat < 0x80 && !c.isAlphanum && c != '<' && c != '>'

/-- The meaning of an escape of one character. All other characters are no ASCII, so there is no
such set without Unicode. -/
def shortEscape? (m : Mode) (c : Char) : Option Atom :=
  match letterEscapes.lookup c with
  | some d => some (.char d false)
  | none =>
    if classLetters.contains c then some (.oneOf (.named (.escape c)))
    else if classLetters.contains c.toLower then
      if m.unicode then some (.oneOf (.complement (.named (.escape c.toLower)))) else none
    else if assertionEscapes.contains c then some (.assertion (String.singleton c))
    else if isEscapable c then some (.char c false)
    else none

/-- The places at words that have names. -/
def wordPlaces : List String := ["start", "end", "start-half", "end-half"]

/-- Whether a character can be in the name of a place. -/
def isPlaceChar (c : Char) : Bool := c.isAlpha || c == '-'

/-- Reads what follows the escape for a word boundary: the name of a place in braces, or nothing;
other braces are a count. -/
def readBoundary? (m : Mode) (cs : List Char) : Option (String × Left cs) :=
  match cs with
  | '\x7b' :: rest =>
    match m.skip rest with
    | [] => none
    | c :: _ =>
      if isPlaceChar c then
        (readToBrace? m rest).bind fun r ↦
          let name := String.ofList r.value
          if wordPlaces.contains name then some (name, r.left.behind) else none
      else some ("b", .all ('\x7b' :: rest))
  | cs => some ("b", .all cs)

/-- Reads what follows a backslash. -/
def readEscape? (m : Mode) (cs : List Char) : Option (Read Atom cs) :=
  match cs with
  | [] => none
  | 'x' :: rest => (readCode? m 2 rest).map .behind
  | 'u' :: rest => (readCode? m 4 rest).map .behind
  | 'U' :: rest => (readCode? m 8 rest).map .behind
  | 'p' :: rest => (readProperty? m false rest).map .behind
  | 'P' :: rest => (readProperty? m true rest).map .behind
  | 'b' :: rest =>
    (readBoundary? m rest).map fun (name, left) ↦
      left.within (Text.length_lt_cons 'b' rest) (.assertion name)
  | c :: _ => (shortEscape? m c).map .first

/-- Whether an atom outside of a class is about text: a byte beyond ASCII is not, without
Unicode. -/
def Atom.isText (m : Mode) : Atom → Bool
  | .char c asByte => m.unicode || !asByte || c.toNat < 0x80
  | .oneOf _ | .assertion _ => true

/-- The pattern of an atom. -/
def Atom.toPattern? (m : Mode) (a : Atom) : Option Pattern :=
  if a.isText m then
    some (match a with
      | .char c _ => .char c
      | .oneOf s => .oneOf s
      | .assertion name => .assertion name)
  else none

end DataQuality.Pattern
