import DataQuality.Yaml.Cursor

/-!
# Words and quoted texts

The texts that flow over lines: what stands between two words is kept as it is within a line, and
an end of the line becomes a blank unless empty lines follow it.
-/

namespace DataQuality.Yaml

/-- What stands between two words: blanks, or an end of the line with further ones. An end of the
line that was escaped is empty. -/
structure Gap where
  blanks : List Char
  lineBreak : Option (List Char)
  further : List Char
  deriving Inhabited

namespace Gap

/-- Nothing yet. -/
def empty : Gap := ⟨[], none, []⟩

/-- The gap behind an escaped end of the line. -/
def escaped : Gap := ⟨[], some [], []⟩

/-- One more blank; at the beginning of a line it does not count. -/
def addBlank (g : Gap) (c : Char) : Gap :=
  if g.lineBreak.isSome then g else { g with blanks := g.blanks ++ [c] }

/-- One more end of the line. -/
def addBreak (g : Gap) (c : Char) : Gap :=
  if g.lineBreak.isSome then { g with further := g.further ++ [c] }
  else { g with blanks := [], lineBreak := some [c] }

/-- The text of a gap between words. -/
def text (g : Gap) : List Char :=
  match g.lineBreak with
  | none => g.blanks
  | some ['\n'] => if g.further.isEmpty then [' '] else g.further
  | some first => first ++ g.further

/-- Whether the gap reaches into another line. -/
def isBroken (g : Gap) : Bool := g.lineBreak.isSome

end Gap

/-- The text of a gap that there may be. -/
def gapText (gap : Option Gap) : List Char := (gap.map Gap.text).getD []

/-- A text that was read: its characters, whether the cursor behind it is in another line, and the
cursor. -/
structure ReadText where
  text : List Char
  brokeLine : Bool
  cursor : Cursor
  deriving Inhabited

/-- The brackets and commas of collections. -/
def isFlowSign (c : Char) : Bool :=
  c == ',' || c == '[' || c == ']' || c == '\x7b' || c == '\x7d'

/-- Whether a colon and what follows it is an error within a word of a collection in brackets. -/
def strayColon (c : Char) (rest : List Char) : Bool :=
  c == ':' && rest.head?.any fun d ↦ d == '?' || isFlowSign d

/-- Whether a word ends at a character. -/
def endsPlain (inFlow : Bool) (c : Char) (rest : List Char) : Bool :=
  (c == ':' && endsWord rest) || (inFlow && isFlowSign c)

/-- Whether a plain text does not go on behind a gap: the line is not indented enough, a mark of a
document stands there, or a comment. -/
def endsBehindGap (inFlow : Bool) (indent : Nat) (m : Mark) (c : Char) (rest : List Char) : Bool :=
  (!inFlow && m.column < indent) || (m.column = 0 && beginsMark (c :: rest)) || c == '#'

/-- Reads a plain text that began at `start`. `indent` is the least column of its further lines,
`text` is what was read so far, last character first, and `gap` is there between words. -/
def readPlain (inFlow : Bool) (indent : Nat) (start : Mark) (text : List Char)
    (gap : Option Gap) (m : Mark) : List Char → Except (Fault Mark) ReadText
  | [] => .ok ⟨text.reverse, gap.any Gap.isBroken, ⟨[], m⟩⟩
  | c :: rest =>
    if isBlank c then
      if gap.any Gap.isBroken && m.column < indent && c == '\t' then
        .error (fault "while scanning a plain scalar" start
          "found a tab character that violates indentation" m)
      else
        readPlain inFlow indent start text (some ((gap.getD .empty).addBlank c)) m.right rest
    else if isBreak c then
      readPlain inFlow indent start text (some ((gap.getD .empty).addBreak c)) m.down rest
    else if gap.isSome && endsBehindGap inFlow indent m c rest then
      .ok ⟨text.reverse, gap.any Gap.isBroken, ⟨c :: rest, m⟩⟩
    else if inFlow && strayColon c rest then
      .error (fault "while scanning a plain scalar" start "found unexpected ':'" m)
    else if endsPlain inFlow c rest then
      .ok ⟨text.reverse, gap.any Gap.isBroken, ⟨c :: rest, m⟩⟩
    else
      readPlain inFlow indent start (c :: ((gapText gap).reverse ++ text)) none m.right rest

/-- The escapes of one letter in a double-quoted text. -/
def letterEscapes : List (Char × Char) :=
  [('0', '\x00'), ('a', '\x07'), ('b', '\x08'), ('t', '\t'), ('\t', '\t'), ('n', '\n'),
    ('v', '\x0b'), ('f', '\x0c'), ('r', '\r'), ('e', '\x1b'), (' ', ' '), ('"', '"'), ('/', '/'),
    ('\\', '\\'), ('N', Char.ofNat 0x85), ('_', Char.ofNat 0xA0), ('L', Char.ofNat 0x2028),
    ('P', Char.ofNat 0x2029)]

/-- The number of digits behind the escapes of character codes. -/
def codeEscapes : List (Char × Nat) := [('x', 2), ('u', 4), ('U', 8)]

/-- The fault in a quoted text that began at `start`. -/
def quotedFault (start : Mark) (problem : String) (place : Mark) : Fault Mark :=
  fault "while parsing a quoted scalar" start problem place

/-- The character of an escape behind a backslash, which stands at `m`, and how many characters
name it. -/
def readEscape (start m : Mark) (cs : List Char) : Except (Fault Mark) (Char × Nat) :=
  match cs with
  | [] => .error (quotedFault start "found unknown escape character" m)
  | c :: rest =>
    match codeEscapes.lookup c with
    | some width =>
      let digits := rest.take width
      match if digits.length = width then Text.naturalIn? 16 digits else none with
      | none => .error (quotedFault start "did not find expected hexdecimal number" (m.rightBy 2))
      | some code =>
        if code.isValidChar then .ok (Char.ofNat code, width + 1)
        else
          .error (quotedFault start "found invalid Unicode character escape code" (m.rightBy 2))
    | none =>
      match letterEscapes.lookup c with
      | some d => .ok (d, 1)
      | none => .error (quotedFault start "found unknown escape character" m)

/-- Reads the rest of a quoted text that began at `start`; the text that was read so far has its
last character first, and `gap` is there between words. In single quotes a quote is written twice
and nothing is escaped. -/
def readQuoted (single : Bool) (start : Mark) (text : List Char) (gap : Option Gap) (m : Mark)
    (cs : List Char) : Except (Fault Mark) ReadText :=
  match cs with
  | [] => .error (fault "while scanning a quoted scalar" start "found unexpected end of stream" m)
  | c :: rest =>
    if isBlank c then
      readQuoted single start text (some ((gap.getD .empty).addBlank c)) m.right rest
    else if isBreak c then
      readQuoted single start text (some ((gap.getD .empty).addBreak c)) m.down rest
    else if gap.isSome && m.column = 0 && beginsMark (c :: rest) then
      .error (fault "while scanning a quoted scalar" start "found unexpected document indicator" m)
    else
      let text := (gapText gap).reverse ++ text
      if single && c == '\'' && rest.head? = some '\'' then
        readQuoted single start ('\'' :: text) none (m.rightBy 2) (rest.drop 1)
      else if c == (if single then '\'' else '"') then .ok ⟨text.reverse, false, ⟨rest, m.right⟩⟩
      else if !single && c == '\\' then
        if rest.head?.any isBreak then
          readQuoted single start text (some .escaped) m.down (rest.drop 1)
        else
          match readEscape start m rest with
          | .error f => .error f
          | .ok (d, width) =>
            readQuoted single start (d :: text) none (m.rightBy (width + 1)) (rest.drop width)
      else readQuoted single start (c :: text) none m.right rest
termination_by cs.length
decreasing_by all_goals simp only [List.length_drop, List.length_cons]; omega

end DataQuality.Yaml
