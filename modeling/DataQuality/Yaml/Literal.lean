import DataQuality.Yaml.Flowing

/-!
# Texts line by line

Texts that are given by whole lines behind a sign: as they are, or folded so that an end of the
line between two lines of words becomes a blank. All lines are indented alike, and a hint behind
the sign tells what becomes of the ends of the last lines.
-/

namespace DataQuality.Yaml

/-- What becomes of the ends of lines at the end of a text: all are dropped, one is kept, or all
are kept. -/
inductive Chomping where
  | strip
  | clip
  | keep
  deriving DecidableEq, Repr, Inhabited

/-- The hints behind the sign of a text: what becomes of its end, and how far it is indented. -/
structure LiteralHints where
  chomping : Chomping
  indent : Option Nat
  deriving DecidableEq, Repr, Inhabited

/-- The fault in a text that is given line by line. -/
def literalFault (start : Mark) (problem : String) (place : Mark) : Fault Mark :=
  fault "while scanning a block scalar" start problem place

/-- Reads the sign of chomping, if there is one. -/
def readChomping (c : Cursor) : Option Chomping × Cursor :=
  match c.rest with
  | '+' :: _ => (some .keep, c.right 1)
  | '-' :: _ => (some .strip, c.right 1)
  | _ => (none, c)

/-- Reads the digit of the indentation, if there is one. -/
def readIndent (start : Mark) (c : Cursor) : Except (Fault Mark) (Option Nat × Cursor) :=
  match c.rest with
  | d :: _ =>
    if d = '0' then
      .error (literalFault start "found an indentation indicator equal to 0" c.mark)
    else if Text.isDigit d then .ok (some (Number.digitValue d), c.right 1)
    else .ok (none, c)
  | [] => .ok (none, c)

/-- Reads the hints, which come in either order. -/
def readHints (start : Mark) (c : Cursor) : Except (Fault Mark) (LiteralHints × Cursor) := do
  let (early, c) := readChomping c
  let (indent, c) ← readIndent start c
  let (late, c) := if early.isNone && indent.isSome then readChomping c else (none, c)
  return (⟨(early.orElse fun _ ↦ late).getD .clip, indent⟩, c)

/-- The ends of lines in front of a line with words, the widest indentation on the way, and the
cursor at the line. -/
structure Margin where
  breaks : List Char
  widest : Nat
  cursor : Cursor
  deriving Inhabited

/-- Whether a column is left of the indentation; every column is if that is not known yet. -/
def isLeftOf (indent : Option Nat) (m : Mark) : Bool := indent.all fun n ↦ m.column < n

/-- Reads empty lines and the indentation of the next line. -/
def readMargin (indent : Option Nat) (start : Mark) (breaks : List Char) (widest : Nat) (m : Mark) :
    List Char → Except (Fault Mark) Margin
  | [] => .ok ⟨breaks, max widest m.column, ⟨[], m⟩⟩
  | c :: rest =>
    if c == ' ' && isLeftOf indent m then readMargin indent start breaks widest m.right rest
    else if c == '\t' && isLeftOf indent m then
      .error (literalFault start
        "found a tab character where an indentation space is expected" m)
    else if isBreak c then
      readMargin indent start (breaks ++ [c]) (max widest m.column) m.down rest
    else .ok ⟨breaks, max widest m.column, ⟨c :: rest, m⟩⟩

/-- A text of which some lines were read. `lineBreak` is the end of the last line with words and
`breaks` are those of the empty lines behind it; `blankStart` is whether that line began with a
blank. -/
structure LiteralText where
  text : List Char
  lineBreak : List Char
  breaks : List Char
  blankStart : Bool
  deriving Inhabited

namespace LiteralText

/-- What stands between the lines that were read and the next one. -/
def glue (folded : Bool) (t : LiteralText) (blankStart : Bool) : List Char :=
  if folded && t.lineBreak == ['\n'] && !t.blankStart && !blankStart then
    if t.breaks.isEmpty then [' '] else t.breaks
  else t.lineBreak ++ t.breaks

/-- The text with one more line. -/
def addLine (folded : Bool) (t : LiteralText) (line lineBreak breaks : List Char) : LiteralText :=
  let blankStart := line.head?.any isBlank
  ⟨t.text ++ t.glue folded blankStart ++ line, lineBreak, breaks, blankStart⟩

/-- The characters of the whole text. -/
def finish (chomping : Chomping) (t : LiteralText) : List Char :=
  match chomping with
  | .strip => t.text
  | .clip => t.text ++ t.lineBreak
  | .keep => t.text ++ t.lineBreak ++ t.breaks

end LiteralText

/-- Reads the lines that are indented as given, the first of which begins at the cursor. -/
def readLines (folded : Bool) (indent : Nat) (start : Mark) (t : LiteralText) (c : Cursor) :
    Except (Fault Mark) (LiteralText × Cursor) :=
  if c.mark.column = indent ∧ c.rest ≠ [] then
    let (line, ending) := c.span fun d ↦ !isBreak d
    let (lineBreak, next) := ending.takeBreak
    match readMargin (some indent) start [] 0 next.mark next.rest with
    | .error f => .error f
    | .ok margin =>
      let t := t.addLine folded line lineBreak margin.breaks
      if margin.cursor.rest.length < c.rest.length then
        readLines folded indent start t margin.cursor
      else .ok (t, margin.cursor)
  else .ok (t, c)
termination_by c.rest.length

/-- Reads a text that is given line by line, the sign of which stands at the cursor. `outer` is the
least column inside the collection around it. -/
def readLiteral (folded : Bool) (outer : Nat) (c : Cursor) : Except (Fault Mark) ReadText := do
  let start := c.mark
  let (hints, c) ← readHints start (c.right 1)
  let c := c.skipComment
  unless endsLine c.rest do
    throw (literalFault start "did not find expected comment or line break" c.mark)
  let (_, c) := c.takeBreak
  let given := hints.indent.map fun n ↦ outer - 1 + n
  let margin ← readMargin given start [] 0 c.mark c.rest
  let indent := given.getD (max margin.widest (max outer 1))
  let (t, c) ← readLines folded indent start ⟨[], [], margin.breaks, false⟩ margin.cursor
  return ⟨t.finish hints.chomping, false, c⟩

end DataQuality.Yaml
