import DataQuality.Document.Record

/-!
# Places in YAML texts

A mark is a line and a column of a text, both counted from zero, and a cursor is a mark with the
characters that are left there. All the ways to end a line are made one before reading begins, so
only the separators of lines and paragraphs are told apart from it.
-/

namespace DataQuality.Yaml

/-- A place in a text. -/
structure Mark where
  line : Nat
  column : Nat
  deriving DecidableEq, Repr, Inhabited

namespace Mark

/-- The place behind one more character of the line. -/
def right (m : Mark) : Mark := ⟨m.line, m.column + 1⟩

/-- The place so many characters further on in the line. -/
def rightBy (m : Mark) (count : Nat) : Mark := ⟨m.line, m.column + count⟩

/-- The beginning of the next line. -/
def down (m : Mark) : Mark := ⟨m.line + 1, 0⟩

/-- The mark as messages name it; the beginning of a text is not worth mentioning. -/
def mention (m : Mark) : String :=
  if m = ⟨0, 0⟩ then ""
  else " at line " ++ Number.natText (m.line + 1) ++ " column " ++ Number.natText (m.column + 1)

end Mark

/-- A place in a text with the characters that are left there. -/
structure Cursor where
  rest : List Char
  mark : Mark
  deriving DecidableEq, Repr, Inhabited

/-- The blanks between words. -/
def isBlank (c : Char) : Bool := c == ' ' || c == '\t'

/-- The ends of lines. -/
def isBreak (c : Char) : Bool := c == '\n' || c.toNat == 0x2028 || c.toNat == 0x2029

/-- Whether a line ends here. -/
def endsLine : List Char → Bool
  | [] => true
  | c :: _ => isBreak c

/-- Whether a word ends here. -/
def endsWord : List Char → Bool
  | [] => true
  | c :: _ => isBlank c || isBreak c

/-- The letters and digits that names are made of. -/
def isNameChar (c : Char) : Bool :=
  ('a' ≤ c && c ≤ 'z') || ('A' ≤ c && c ≤ 'Z') || Text.isDigit c || c == '_' || c == '-'

/-- Whether a mark of a document stands here: three signs that a blank or nothing follows. -/
def beginsMark (cs : List Char) : Bool :=
  ("---".toList.isPrefixOf cs || "...".toList.isPrefixOf cs) && endsWord (cs.drop 3)

namespace Cursor

/-- The cursor behind so many characters of the line. -/
def right (c : Cursor) (count : Nat) : Cursor := ⟨c.rest.drop count, c.mark.rightBy count⟩

/-- The characters of a class in front, and the cursor behind them; none of them ends a line. -/
def span (p : Char → Bool) (c : Cursor) : List Char × Cursor :=
  let taken := c.rest.takeWhile p
  (taken, ⟨c.rest.dropWhile p, c.mark.rightBy taken.length⟩)

/-- The cursor behind blanks. -/
def skipBlanks (c : Cursor) : Cursor := (c.span isBlank).2

/-- The end of the line in front, and the cursor behind it; at the end of the text there is none. -/
def takeBreak (c : Cursor) : List Char × Cursor :=
  match c.rest with
  | d :: rest => if isBreak d then ([d], ⟨rest, c.mark.down⟩) else ([], c)
  | [] => ([], c)

/-- The cursor behind blanks and a comment. -/
def skipComment (c : Cursor) : Cursor :=
  let c := c.skipBlanks
  if c.rest.head? = some '#' then (c.span fun d ↦ !isBreak d).2 else c

end Cursor

/-- The fault of what was being read since some place. -/
def fault (context : String) (since : Mark) (problem : String) (place : Mark) : Fault Mark :=
  ⟨problem, place, some (context, since)⟩

/-- The fault of a text on the whole. -/
def plainFault (problem : String) (place : Mark) : Fault Mark := ⟨problem, place, none⟩

/-- The message of a fault. -/
def explainFault (f : Fault Mark) : String :=
  let since := match f.context with
    | none => ""
    | some (context, m) => ", " ++ context ++ if m = f.place then "" else m.mention
  f.problem ++ f.place.mention ++ since

/-- A float in messages: a whole number has a decimal. -/
def floatText (x : Float) : String :=
  let text := Number.plainText x
  if Number.isFinite x && !text.toList.contains '.' then text ++ ".0" else text

/-- How messages speak of values. -/
def phrasing : Phrasing := ⟨"unit value", floatText⟩

/-- A path with one more step. -/
def extendPath (path : String) : PathStep → String
  | .member name => if path.isEmpty then name else path ++ "." ++ name
  | .item index => (if path.isEmpty then "." else path) ++ "[" ++ Number.natText index ++ "]"
  | .nameless => if path.isEmpty then "?" else path ++ ".?"

/-- What the message about a node begins with. -/
def pathText (steps : List PathStep) : String :=
  let path := steps.foldl extendPath ""
  if path.isEmpty then "" else path ++ ": "

/-- The message of an error. -/
def explainError : DocumentError Mark → String
  | .malformed f => explainFault f
  | .unplaced flaw => flaw.describe phrasing
  | .placed flaw path begins _ => pathText path ++ flaw.describe phrasing ++ begins.mention

/-- Makes one of all the ends of lines but the separators. -/
def joinBreaks : List Char → List Char
  | [] => []
  | '\r' :: '\n' :: rest => '\n' :: joinBreaks rest
  | c :: rest => (if c == '\r' || c.toNat == 0x85 then '\n' else c) :: joinBreaks rest

/-- Whether a character may occur in a text. -/
def isAllowed (c : Char) : Bool :=
  Text.inRanges [(0x09, 0x0A), (0x0D, 0x0D), (0x20, 0x7E), (0x85, 0x85), (0xA0, 0xD7FF),
    (0xE000, 0xFFFD), (0x10000, 0x10FFFF)] c.toNat

/-- The mark of the byte order that a text may begin with. -/
def orderMark : Char := Char.ofNat 0xFEFF

/-- The number of bytes in front of the first character that may not occur, if there is one. -/
def strayOffset? (offset : Nat) : List Char → Option Nat
  | [] => none
  | c :: rest => if isAllowed c then strayOffset? (offset + c.utf8Size) rest else some offset

/-- The fault of a character that may not occur. -/
def strayFault (offset : Nat) : Fault Mark :=
  plainFault
    ("control characters are not allowed" ++
      if offset = 0 then "" else " at position " ++ Number.natText offset)
    ⟨0, 0⟩

/-- The cursor at the beginning of a text. -/
def Cursor.ofText (source : String) : Except (Fault Mark) Cursor :=
  match strayOffset? 0 source.toList with
  | some offset => .error (strayFault offset)
  | none =>
    match source.toList with
    | c :: rest =>
      .ok ⟨joinBreaks (if c = orderMark then rest else c :: rest), ⟨0, 0⟩⟩
    | [] => .ok ⟨[], ⟨0, 0⟩⟩

end DataQuality.Yaml
