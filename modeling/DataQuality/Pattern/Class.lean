import DataQuality.Pattern.Escape

/-!
# Bracketed classes in regular expressions

A class holds characters, ranges, escapes, named classes and other classes, and operators on the
sets before and behind them. Where there is no Unicode all of it is ASCII, so that no class can be
negated.
-/

namespace DataQuality.Pattern

open Text (Read Left)

/-- Reads a character of a class, which may be escaped. -/
def readClassAtom? (m : Mode) (cs : List Char) : Option (Read Atom cs) :=
  match cs with
  | [] => none
  | '\\' :: rest => (readEscape? m rest).map .behind
  | c :: _ => some (.first (.char c false))

/-- The character that an atom stands for, if it may be in a class. -/
def Atom.classChar? (m : Mode) : Atom → Option Char
  | .char c _ => if m.unicode || c.toNat < 0x80 then some c else none
  | .oneOf _ | .assertion _ => none

/-- The set that an atom stands for in a class; a place in the text stands for none. -/
def Atom.asSet? (m : Mode) : Atom → Option CharSet
  | .oneOf s => some s
  | a => (a.classChar? m).map .ofChar

/-- The character that seems to follow a sign. White space does not count when the pattern is
spaced, and neither does the mark of a comment, but the comment itself does. -/
def seemsNext? (m : Mode) (cs : List Char) : Option Char :=
  if m.spaced then
    match cs.dropWhile Text.isSpace with
    | '#' :: rest => (rest.dropWhile Text.isSpace).head? <|> cs.head?
    | c :: _ => some c
    | [] => cs.head?
  else cs.head?

/-- Whether a class goes on with a dash that leads to the end of a range. -/
def continuesRange (m : Mode) : List Char → Bool
  | '-' :: rest => seemsNext? m rest != some ']' && seemsNext? m rest != some '-'
  | _ => false

/-- The range between two atoms: both must be characters, in order. -/
def rangeBetween? (m : Mode) (a b : Atom) : Option CharSet :=
  match a.classChar? m, b.classChar? m with
  | some a, some b => if a ≤ b then some (.range a b) else none
  | _, _ => none

/-- Reads a range of a class, or one character or escape of it. -/
def readRange? (m : Mode) (cs : List Char) : Option (Read CharSet cs) :=
  (readClassAtom? m cs).bind fun first ↦
    match h : m.skip first.rest with
    | [] => none
    | c :: rest =>
      if continuesRange m (c :: rest) then
        (readClassAtom? m (m.skip rest)).bind fun last ↦
          (rangeBetween? m first.value last.value).map fun s ↦
            ⟨s, last.rest, Nat.lt_trans last.shorter (Nat.lt_of_le_of_lt (m.length_skip_le rest)
              (Nat.lt_trans (Mode.length_lt_of_skip h) first.shorter))⟩
      else (first.value.asSet? m).map fun s ↦ first.map fun _ ↦ s

/-- The names of classes between `[:` and `:]`. -/
def bracketNames : List String :=
  ["alnum", "alpha", "ascii", "blank", "cntrl", "digit", "graph", "lower", "print", "punct",
    "space", "upper", "word", "xdigit"]

/-- The class that a name stands for, with a caret in front for its complement. -/
def namedClass? (body : List Char) : Option (Bool × CharSet) :=
  let (negated, name) := match body with
    | '^' :: name => (true, String.ofList name)
    | name => (false, String.ofList name)
  if bracketNames.contains name then
    some (negated, .negatedIf negated (.named (.word name)))
  else none

theorem length_lt_of_cut_behind {c d : Char} {cs body rest : List Char}
    (h : Text.cut c cs = some (body, d :: rest)) : rest.length < (c :: cs).length :=
  Nat.lt_trans (Nat.lt_of_succ_lt (Text.length_lt_of_cut h)) (Nat.lt_succ_self _)

/-- Reads a named class such as `[:alpha:]`, its opening bracket already taken, and whether it is
negated. What is not one begins a class of another kind. -/
def readNamedClass? (cs : List Char) : Option (Read (Bool × CharSet) cs) :=
  match cs with
  | ':' :: tail =>
    match h : Text.cut ':' tail with
    | some (body, ']' :: rest) =>
      (namedClass? body).map fun s ↦ ⟨s, rest, length_lt_of_cut_behind h⟩
    | _ => none
  | _ => none

/-- The operators between the parts of a class. -/
inductive SetOperator where
  | intersection
  | difference
  | symmetricDifference

/-- The set that an operator makes of two. -/
def SetOperator.apply : SetOperator → CharSet → CharSet → CharSet
  | .intersection => .intersection
  | .difference => .difference
  | .symmetricDifference => .symmetricDifference

/-- The operator that the characters start with. -/
def setOperator? : List Char → Option SetOperator
  | '&' :: '&' :: _ => some .intersection
  | '-' :: '-' :: _ => some .difference
  | '~' :: '~' :: _ => some .symmetricDifference
  | _ => none

/-- A class that is being read: what the last operator waits with, and the sets read since, the
last one first. -/
structure OpenClass where
  negated : Bool
  waiting : Option (CharSet × SetOperator)
  items : List CharSet

namespace OpenClass

/-- The class with one more part. -/
def add (c : OpenClass) (s : CharSet) : OpenClass := { c with items := s :: c.items }

/-- What the operators so far come to. -/
def combined (c : OpenClass) : CharSet :=
  let right := CharSet.ofItems c.items.reverse
  match c.waiting with
  | some (left, op) => op.apply left right
  | none => right

/-- The class as it goes on behind an operator. -/
def operate (c : OpenClass) (op : SetOperator) : OpenClass :=
  { c with waiting := some (c.combined, op), items := [] }

/-- The set of the finished class. -/
def close (c : OpenClass) : CharSet := .bracketed (.negatedIf c.negated c.combined)

end OpenClass

/-- Reads the dashes that a class begins with; they stand for themselves. -/
def readDashes (m : Mode) (cs : List Char) : List CharSet × Left cs :=
  match h : m.skip cs with
  | c :: rest =>
    have := Mode.length_lt_of_skip h
    if c = '-' then
      let (items, left) := readDashes m rest
      (.ofChar '-' :: items, ⟨left.val, Nat.le_trans left.property (Nat.le_of_lt this)⟩)
    else ([], .all cs)
  | [] => ([], .all cs)
termination_by cs.length
decreasing_by all_goals omega

/-- Reads the caret that negates a class. -/
def readCaret (m : Mode) (cs : List Char) : Bool × Left cs :=
  match h : m.skip cs with
  | c :: rest =>
    if c = '^' then (true, ⟨rest, Nat.le_of_lt (Mode.length_lt_of_skip h)⟩) else (false, .all cs)
  | [] => (false, .all cs)

/-- Reads a closing bracket that stands for itself because nothing is in the class yet. -/
def readFirstBracket (m : Mode) (cs : List Char) : List CharSet × Left cs :=
  match h : m.skip cs with
  | c :: rest =>
    if c = ']' then ([.ofChar ']'], ⟨rest, Nat.le_of_lt (Mode.length_lt_of_skip h)⟩)
    else ([], .all cs)
  | [] => ([], .all cs)

/-- Begins a class behind its opening bracket: a caret negates it, and dashes or else one closing
bracket in front stand for themselves. -/
def beginClass? (m : Mode) (cs : List Char) : Option (OpenClass × Left cs) :=
  let (negated, afterCaret) := readCaret m cs
  let (dashes, afterDashes) := readDashes m afterCaret.val
  let (bracket, afterBracket) :=
    if dashes.isEmpty then readFirstBracket m afterDashes.val else ([], .all afterDashes.val)
  if negated && !m.unicode then none
  else
    some (⟨negated, none, dashes ++ bracket⟩, ⟨afterBracket.val,
      Nat.le_trans afterBracket.property (Nat.le_trans afterDashes.property afterCaret.property)⟩)

/-- Reads a class to its closing bracket; `outer` holds the classes around it, innermost first. -/
def readClass? (m : Mode) (outer : List OpenClass) (current : OpenClass) (cs : List Char) :
    Option (Read CharSet cs) :=
  match h : m.skip cs with
  | [] => none
  | c :: rest =>
    have hlt := Mode.length_lt_of_skip h
    if c = ']' then
      match outer with
      | [] => some ⟨current.close, rest, hlt⟩
      | parent :: outer =>
        (readClass? m outer (parent.add current.close) rest).map (·.within hlt)
    else if c = '[' then
      match readNamedClass? rest with
      | some named =>
        have hle : named.rest.length < cs.length := Nat.lt_trans named.shorter hlt
        if named.value.1 && !m.unicode then none
        else
          (readClass? m outer (current.add named.value.2) named.rest).map
            (·.within hle)
      | none =>
        (beginClass? m rest).bind fun (inner, left) ↦
          have hle : left.val.length < cs.length := Nat.lt_of_le_of_lt left.property hlt
          (readClass? m (current :: outer) inner left.val).map (·.within hle)
    else
      match setOperator? (c :: rest) with
      | some op =>
        have hle : (rest.drop 1).length < cs.length :=
          Nat.lt_of_le_of_lt (List.drop_sublist 1 rest).length_le hlt
        (readClass? m outer (current.operate op) (rest.drop 1)).map (·.within hle)
      | none =>
        (readRange? m (c :: rest)).bind fun item ↦
          have hle : item.rest.length < cs.length := Nat.lt_of_lt_of_le item.shorter hlt
          (readClass? m outer (current.add item.value) item.rest).map
            (·.within hle)
termination_by cs.length
decreasing_by all_goals omega

/-- Reads a class behind its opening bracket. -/
def readBracketed? (m : Mode) (cs : List Char) : Option (Read CharSet cs) :=
  (beginClass? m cs).bind fun (c, left) ↦
    (readClass? m [] c left.val).map (·.widen left.property)

end DataQuality.Pattern
