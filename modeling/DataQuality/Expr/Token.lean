import DataQuality.Expr.Basic
import DataQuality.Text.Case

/-!
# Tokens

A source text is cut into tokens by looking at the first character that is no white space. Each
token knows the offset, in characters, at which its lexeme starts.
-/

namespace DataQuality

/-- The smallest meaningful part of an expression. -/
inductive Token where
  | number (value : Float)
  | text (value : String)
  | identifier (name : String)
  | bool (value : Bool)
  | null
  | connective (op : Connective)
  | not
  | comparison (op : Comparison)
  | plus
  | minus
  | star
  | slash
  | leftParen
  | rightParen

namespace Token

/-- The token as error messages name it. -/
def describe : Token → String
  | number value => "number " ++ Number.plainText value
  | text value => "string '" ++ value ++ "'"
  | identifier name => "identifier '" ++ name ++ "'"
  | bool true => "'true'"
  | bool false => "'false'"
  | null => "'null'"
  | connective op => "'" ++ op.symbol ++ "'"
  | not => "'not'"
  | comparison op => "'" ++ op.symbol ++ "'"
  | plus => "'+'"
  | minus => "'-'"
  | star => "'*'"
  | slash => "'/'"
  | leftParen => "'('"
  | rightParen => "')'"

end Token

/-- What the reader of an expression would have accepted. -/
inductive Expectation where
  | operand
  | closingParen
  | endOfExpression
  deriving DecidableEq, Repr

/-- The expectation as error messages name it. -/
def Expectation.describe : Expectation → String
  | .operand => "a value, identifier or '('"
  | .closingParen => "')'"
  | .endOfExpression => "end of expression"

/-- Why a text is no expression. -/
inductive SyntaxError where
  | empty
  | unexpectedCharacter (c : Char) (position : Nat)
  | unterminatedString (position : Nat)
  | invalidNumber (lexeme : String) (position : Nat)
  | unexpectedToken (found : Token) (expected : Expectation) (position : Nat)
  | unexpectedEnd (expected : Expectation)
  | tooDeep (limit : Nat)
  | tooLong (limit : Nat)

/-- The message of a syntax error. -/
def SyntaxError.message : SyntaxError → String
  | empty => "empty expression"
  | unexpectedCharacter c position =>
    "unexpected character '" ++ String.ofList [c] ++ "' at position " ++ Number.natText position
  | unterminatedString position =>
    "unterminated string starting at position " ++ Number.natText position
  | invalidNumber lexeme position =>
    "invalid number '" ++ lexeme ++ "' at position " ++ Number.natText position
  | unexpectedToken found expected position =>
    "unexpected " ++ found.describe ++ " at position " ++ Number.natText position ++
      ", expected " ++ expected.describe
  | unexpectedEnd expected => "unexpected end of expression, expected " ++ expected.describe
  | tooDeep limit => "expression nests deeper than " ++ Number.natText limit ++ " levels"
  | tooLong limit => "expression has more than " ++ Number.natText limit ++ " tokens"

/-- A token and the offset of its lexeme. -/
structure Placed where
  token : Token
  position : Nat

namespace Token

/-- A comparison sign, by its first character and whether an equals sign follows. -/
def comparison? : Char → Bool → Option Comparison
  | '=', true => some .eq
  | '!', true => some .ne
  | '<', true => some .le
  | '>', true => some .ge
  | '<', false => some .lt
  | '>', false => some .gt
  | _, _ => none

/-- The token of a single character that is one by itself. -/
def symbol? : Char → Option Token
  | '(' => some .leftParen
  | ')' => some .rightParen
  | '+' => some .plus
  | '-' => some .minus
  | '*' => some .star
  | '/' => some .slash
  | _ => none

/-- The content of a quoted text behind its opening quote, and what follows the closing one. A
backslash takes the next character as it is. -/
def quoted? (quote : Char) : List Char → Option (List Char × List Char)
  | [] => none
  | '\\' :: c :: rest => (quoted? quote rest).map fun r ↦ (c :: r.1, r.2)
  | '\\' :: [] => none
  | c :: rest =>
    if c = quote then some ([], rest) else (quoted? quote rest).map fun r ↦ (c :: r.1, r.2)

/-- The fraction that the characters start with: a point and digits. -/
def spanFraction : List Char → List Char × List Char
  | '.' :: rest =>
    if rest.head?.any Text.isDigit then
      ('.' :: (Number.spanDigits rest).1, (Number.spanDigits rest).2)
    else ([], '.' :: rest)
  | rest => ([], rest)

/-- The sign that the characters start with. -/
def spanExponentSign : List Char → List Char × List Char
  | c :: rest => if c = '+' ∨ c = '-' then ([c], rest) else ([], c :: rest)
  | [] => ([], [])

/-- The exponent that the characters start with: a mark, an optional sign and digits. -/
def spanExponent : List Char → List Char × List Char
  | c :: rest =>
    let (sign, after) := spanExponentSign rest
    if (c = 'e' ∨ c = 'E') ∧ after.head?.any Text.isDigit then
      (c :: (sign ++ (Number.spanDigits after).1), (Number.spanDigits after).2)
    else ([], c :: rest)
  | [] => ([], [])

/-- The rest of the numeral whose first digit stands before the characters. -/
def spanNumeral (cs : List Char) : List Char × List Char :=
  let (whole, rest) := Number.spanDigits cs
  let (fraction, rest) := spanFraction rest
  let (exponent, rest) := spanExponent rest
  (whole ++ fraction ++ exponent, rest)

/-- A character that may start a word. -/
def startsWord (c : Char) : Bool := Text.isLetter c || c == '_'

/-- The word that the characters start with. A point belongs to it when a character that may
start a word comes next. -/
def spanWord : List Char → List Char × List Char
  | [] => ([], [])
  | c :: rest =>
    if Text.isLetterOrNumeric c || c == '_' || (c == '.' && rest.head?.any startsWord) then
      (c :: (spanWord rest).1, (spanWord rest).2)
    else ([], c :: rest)

/-- The token of a word: a keyword in any letter case, or an identifier. -/
def ofWord (word : String) : Token :=
  match Text.lower word with
  | "and" => .connective .and
  | "or" => .connective .or
  | "not" => .not
  | "true" => .bool true
  | "false" => .bool false
  | "null" => .null
  | "none" => .null
  | _ => .identifier word

theorem length_spanDigits_le (cs : List Char) : (Number.spanDigits cs).2.length ≤ cs.length := by
  simpa only [Number.spanDigits] using (List.dropWhile_sublist Text.isDigit).length_le

theorem length_spanFraction_le (cs : List Char) : (spanFraction cs).2.length ≤ cs.length := by
  unfold spanFraction
  split
  · next rest =>
    split
    · have := length_spanDigits_le rest
      simp only [List.length_cons]
      omega
    · simp
  · simp

theorem length_spanExponentSign_le (cs : List Char) :
    (spanExponentSign cs).2.length ≤ cs.length := by
  unfold spanExponentSign
  split
  · split <;> simp
  · simp

theorem length_spanExponent_le (cs : List Char) : (spanExponent cs).2.length ≤ cs.length := by
  unfold spanExponent
  split
  · next c rest =>
    have h1 := length_spanExponentSign_le rest
    have h2 := length_spanDigits_le (spanExponentSign rest).2
    split
    next sign after heq =>
    simp only [heq] at h1 h2
    split
    · simp only [List.length_cons]
      omega
    · simp
  · simp

theorem length_spanNumeral_le (cs : List Char) : (spanNumeral cs).2.length ≤ cs.length := by
  have h1 := length_spanDigits_le cs
  have h2 := length_spanFraction_le (Number.spanDigits cs).2
  have h3 := length_spanExponent_le (spanFraction (Number.spanDigits cs).2).2
  simp only [spanNumeral]
  omega

theorem length_spanWord_le (cs : List Char) : (spanWord cs).2.length ≤ cs.length := by
  induction cs with
  | nil => simp [spanWord]
  | cons c rest ih =>
    simp only [spanWord]
    split
    · simp only [List.length_cons]
      omega
    · simp

theorem length_quoted?_le {quote : Char} {cs : List Char} {r : List Char × List Char}
    (h : quoted? quote cs = some r) : r.2.length ≤ cs.length := by
  fun_induction quoted? quote cs generalizing r with
  | case1 => simp at h
  | case2 c rest ih =>
    obtain ⟨r', hr', rfl⟩ := Option.map_eq_some_iff.mp h
    have := ih hr'
    simp only [List.length_cons]
    omega
  | case3 => simp at h
  | case4 c rest =>
    simp only [Option.some.injEq] at h
    subst h
    simp
  | case5 c rest _ _ _ ih =>
    obtain ⟨r', hr', rfl⟩ := Option.map_eq_some_iff.mp h
    have := ih hr'
    simp only [List.length_cons]
    omega

/-- A token, and the characters that follow its lexeme. -/
structure Scan (cs : List Char) where
  token : Token
  rest : List Char
  fits : rest.length ≤ cs.length

/-- The token whose lexeme starts with `c`, which is no white space and stands at `position`. -/
def scan (position : Nat) (c : Char) (cs : List Char) : Except SyntaxError (Scan cs) :=
  match symbol? c with
  | some token => .ok ⟨token, cs, Nat.le_refl _⟩
  | none =>
    if c = '=' ∨ c = '!' ∨ c = '<' ∨ c = '>' then
      match comparison? c (cs.head? == some '=') with
      | some op =>
        .ok ⟨.comparison op, if cs.head? == some '=' then cs.tail else cs, by
          split <;> simp⟩
      | none => .error (.unexpectedCharacter c position)
    else if c = '\'' ∨ c = '"' then
      match h : quoted? c cs with
      | some r => .ok ⟨.text (String.ofList r.1), r.2, length_quoted?_le h⟩
      | none => .error (.unterminatedString position)
    else if Text.isDigit c then
      let lexeme := String.ofList (c :: (spanNumeral cs).1)
      match Number.parseFloat? lexeme with
      | some value => .ok ⟨.number value, (spanNumeral cs).2, length_spanNumeral_le cs⟩
      | none => .error (.invalidNumber lexeme position)
    else if startsWord c then
      .ok ⟨ofWord (String.ofList (c :: (spanWord cs).1)), (spanWord cs).2, length_spanWord_le cs⟩
    else .error (.unexpectedCharacter c position)

/-- The tokens of the characters, of which the first stands at `position`. -/
def scanAll (position : Nat) (cs : List Char) : Except SyntaxError (List Placed) :=
  match cs with
  | [] => .ok []
  | c :: rest =>
    if Text.isSpace c then scanAll (position + 1) rest
    else
      (scan position c rest).bind fun s ↦
        have := s.fits
        (scanAll (position + 1 + (rest.length - s.rest.length)) s.rest).map
          (⟨s.token, position⟩ :: ·)
termination_by cs.length

end Token

/-- Cuts a source text into tokens. -/
def tokenize (source : String) : Except SyntaxError (List Placed) := Token.scanAll 0 source.toList

end DataQuality
