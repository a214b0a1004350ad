import DataQuality.Document.Record

/-!
# Places in JSON texts

A place is what is left of the text there, and so many bytes of it besides. Line and column of a
place are found only when a message shows them: lines are counted from one, and the column is the
number of bytes in front of the place in its line.
-/

namespace DataQuality.Json

/-- A place in a text. -/
structure Place where
  rest : List Char
  beyond : Nat
  deriving DecidableEq, Repr, Inhabited

namespace Place

/-- The place in front of characters. -/
def before (cs : List Char) : Place := ⟨cs, 0⟩

/-- The place behind the first byte of characters. -/
def behind (cs : List Char) : Place := ⟨cs, if cs.isEmpty then 0 else 1⟩

/-- The number of bytes of characters. -/
def byteCount (cs : List Char) : Nat := cs.foldl (fun n c ↦ n + c.utf8Size) 0

/-- The line and the column so many bytes further on. -/
def advance (line column bytes : Nat) : List Char → Nat × Nat
  | [] => (line, column)
  | c :: rest =>
    if bytes < c.utf8Size then (line, column + bytes)
    else if c = '\n' then advance (line + 1) 0 (bytes - 1) rest
    else advance line (column + c.utf8Size) (bytes - c.utf8Size) rest

/-- The line and the column of a place in a text. -/
def position (p : Place) (source : List Char) : Nat × Nat :=
  advance 1 0 (byteCount source - byteCount p.rest + p.beyond) source

/-- A message about a place. -/
def explain (p : Place) (source : List Char) (message : String) : String :=
  let (line, column) := p.position source
  message ++ " at line " ++ Number.natText line ++ " column " ++ Number.natText column

end Place

/-- The fault of a text that is malformed at a place. -/
def fault (problem : String) (p : Place) : Fault Place := ⟨problem, p, none⟩

/-- Blanks between the parts of a value. -/
def isBlank (c : Char) : Bool := c == ' ' || c == '\n' || c == '\t' || c == '\r'

/-- Leaves out blanks in front. -/
def skipBlanks (cs : List Char) : List Char := cs.dropWhile isBlank

theorem length_skipBlanks_le (cs : List Char) : (skipBlanks cs).length ≤ cs.length := by
  simpa only [skipBlanks] using (List.dropWhile_sublist isBlank).length_le

/-- Why reading stops behind a list that should have ended, if it does: at a comma something may
still follow. -/
def listFault (cs : List Char) : Fault Place :=
  match skipBlanks cs with
  | [] => fault "EOF while parsing a list" (.before [])
  | ',' :: rest =>
    match skipBlanks rest with
    | ']' :: more => fault "trailing comma" (.behind (']' :: more))
    | more => fault "trailing characters" (.behind more)
  | rest => fault "trailing characters" (.behind rest)

/-- How messages speak of values. -/
def phrasing : Phrasing := ⟨"null", floatText⟩

/-- The message of a flaw. -/
def explainFlaw (source : List Char) (begins reached : Place) : Flaw → String
  | .noChoice _ => (Place.behind begins.rest).explain source "expected value"
  | .furtherMember =>
    reached.explain source
      (if reached.rest.isEmpty then "EOF while parsing an object" else "expected value")
  | .furtherItem =>
    let f := listFault reached.rest
    f.place.explain source f.problem
  | flaw => reached.explain source (flaw.describe phrasing)

/-- The message of an error. -/
def explainError (source : String) : DocumentError Place → String
  | .malformed f => f.place.explain source.toList f.problem
  | .unplaced flaw => flaw.describe phrasing
  | .placed flaw _ begins reached => explainFlaw source.toList begins reached flaw

end DataQuality.Json
