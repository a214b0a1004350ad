import DataQuality.Yaml.Literal
import DataQuality.Yaml.Property

/-!
# Tokens

A text is taken apart into tokens, of which some are not written: indentation begins and ends block
collections, and a colon turns the node in front of it into a key. A node that may still become a
key is held back with all that follows it, until a colon comes or the line ends. A text that cannot
be taken apart further ends its tokens with a fault, and what is held back then is lost.
-/

namespace DataQuality.Yaml

/-- What a token says. -/
inductive TokenKind where
  | directive (d : Directive)
  | documentStart
  | documentEnd
  | streamEnd
  | blockList
  | blockRecord
  | blockEnd
  | listOpen
  | listClose
  | recordOpen
  | recordClose
  | dash
  | comma
  | key
  | value
  | copyOf (name : String)
  | anchor (name : String)
  | tag (t : WrittenTag)
  | scalar (text : String) (style : Style)
  deriving DecidableEq, Repr, Inhabited

/-- A token and its place. -/
structure Token where
  kind : TokenKind
  start : Mark
  stop : Mark
  deriving DecidableEq, Repr, Inhabited

/-- A node that may still become a key: the number of its first token, whether it has to become
one, and where it begins. -/
structure KeyCandidate where
  number : Nat
  required : Bool
  mark : Mark
  deriving DecidableEq, Repr, Inhabited

/-- How long a key may be. -/
def longestKey : Nat := 1024

/-- Whether the candidate cannot become a key any more when reading has come to a place: a key
stands in one line and is not too long. -/
def KeyCandidate.isStale (k : KeyCandidate) (m : Mark) : Bool :=
  k.mark.line < m.line || k.mark.column + longestKey < m.column

/-- The candidate, while it still may become a key. -/
def freshKey (m : Mark) : Option KeyCandidate → Except (Fault Mark) (Option KeyCandidate)
  | none => .ok none
  | some k =>
    if !k.isStale m then .ok (some k)
    else if k.required then
      .error (fault "while scanning a simple key" k.mark "could not find expected ':'" m)
    else .ok none

/-- What is known while a text is taken apart. `indents` are the columns of the block collections
around the cursor, innermost first; `key?` is the candidate of the innermost collection and
`outerKeys` are those around the collections in brackets. The tokens that `waiting` holds back are
preceded by `delivered` others. -/
structure TokenReader where
  cursor : Cursor
  indents : List Nat
  key? : Option KeyCandidate
  outerKeys : List (Option KeyCandidate)
  keyAllowed : Bool
  waiting : List Token
  delivered : Nat
  deriving Inhabited

namespace TokenReader

/-- At the beginning of a text. -/
def ofCursor (c : Cursor) : TokenReader := ⟨c, [], none, [], true, [], 0⟩

/-- Whether the cursor is inside brackets. -/
def inFlow (r : TokenReader) : Bool := !r.outerKeys.isEmpty

/-- The least column inside the innermost block collection. -/
def innerColumn (r : TokenReader) : Nat :=
  match r.indents with
  | [] => 0
  | column :: _ => column + 1

/-- Holds back one more token. -/
def emit (r : TokenReader) (t : Token) : TokenReader := { r with waiting := r.waiting ++ [t] }

/-- Puts a token in front of those from the given number on. -/
def emitBefore (r : TokenReader) (number : Nat) (t : Token) : TokenReader :=
  let (before, behind) := r.waiting.splitAt (number - r.delivered)
  { r with waiting := before ++ t :: behind }

/-- Takes a sign of some characters as a token. -/
def sign (r : TokenReader) (kind : TokenKind) (length : Nat) : TokenReader :=
  let next := r.cursor.right length
  { r with cursor := next }.emit ⟨kind, r.cursor.mark, next.mark⟩

/-- Whether a block collection begins at a column. -/
def beginsBlock (r : TokenReader) (column : Nat) : Bool := !r.inFlow && r.innerColumn ≤ column

/-- Begins a block collection at the cursor, unless it goes on there. -/
def beginBlock (r : TokenReader) (kind : TokenKind) : TokenReader :=
  let m := r.cursor.mark
  if r.beginsBlock m.column then { r with indents := m.column :: r.indents }.emit ⟨kind, m, m⟩
  else r

/-- Ends the block collections for whose columns `ends` holds. -/
def endBlocks (r : TokenReader) (ends : Nat → Bool) : TokenReader :=
  if r.inFlow then r
  else
    let m := r.cursor.mark
    { r with
      waiting := r.waiting ++ (r.indents.takeWhile ends).map fun _ ↦ ⟨.blockEnd, m, m⟩
      indents := r.indents.dropWhile ends }

/-- Gives up the candidate of the innermost collection. -/
def dropKey (r : TokenReader) : Except (Fault Mark) TokenReader :=
  match r.key? with
  | none => .ok r
  | some k =>
    if k.required then
      .error (fault "while scanning a simple key" k.mark "could not find expected ':'"
        r.cursor.mark)
    else .ok { r with key? := none }

/-- Makes the node at the cursor a candidate, where one may begin. In a block collection a node in
the column of the collection has to become a key. -/
def saveKey (r : TokenReader) : Except (Fault Mark) TokenReader :=
  let m := r.cursor.mark
  let required := !r.inFlow && r.indents.head? == some m.column
  if r.keyAllowed then
    r.dropKey.map fun r ↦ { r with key? := some ⟨r.delivered + r.waiting.length, required, m⟩ }
  else .ok r

/-- Leaves out blanks, comments and ends of lines. In a block collection a new line may begin with a
key, and no tab may stand where one may begin. -/
def skipIdle (inFlow : Bool) (keyAllowed inComment : Bool) (m : Mark) :
    List Char → Bool × Cursor
  | [] => (keyAllowed, ⟨[], m⟩)
  | c :: rest =>
    if isBreak c then skipIdle inFlow (keyAllowed || !inFlow) false m.down rest
    else if inComment || c == ' ' || (c == '\t' && (inFlow || !keyAllowed)) then
      skipIdle inFlow keyAllowed inComment m.right rest
    else if c == '#' then skipIdle inFlow keyAllowed true m.right rest
    else (keyAllowed, ⟨c :: rest, m⟩)

/-- The end of the text, which ends its line. -/
def endText (r : TokenReader) : Except (Fault Mark) TokenReader := do
  let m := r.cursor.mark
  let stop : Cursor := ⟨[], if m.column = 0 then m else m.down⟩
  let r ← ({ r with cursor := stop }.endBlocks fun _ ↦ true).dropKey
  return { r with keyAllowed := false }.emit ⟨.streamEnd, r.cursor.mark, r.cursor.mark⟩

/-- A directive in front of a document. -/
def takeDirective (r : TokenReader) : Except (Fault Mark) TokenReader := do
  let r ← (r.endBlocks fun _ ↦ true).dropKey
  let (d, next) ← readDirective r.cursor
  return { r with cursor := next, keyAllowed := false }.emit
    ⟨.directive d, r.cursor.mark, next.mark⟩

/-- A mark of a document. -/
def takeMark (r : TokenReader) (kind : TokenKind) : Except (Fault Mark) TokenReader := do
  let r ← (r.endBlocks fun _ ↦ true).dropKey
  return { r with keyAllowed := false }.sign kind 3

/-- An opening bracket. -/
def openFlow (r : TokenReader) (kind : TokenKind) : Except (Fault Mark) TokenReader := do
  let r ← r.saveKey
  return { r with key? := none, outerKeys := r.key? :: r.outerKeys, keyAllowed := true }.sign kind 1

/-- A closing bracket. -/
def closeFlow (r : TokenReader) (kind : TokenKind) : Except (Fault Mark) TokenReader := do
  let r ← r.dropKey
  let r := match r.outerKeys with
    | [] => r
    | key? :: outer => { r with key? := key?, outerKeys := outer }
  return { r with keyAllowed := false }.sign kind 1

/-- A comma between the nodes of a collection in brackets. -/
def takeComma (r : TokenReader) : Except (Fault Mark) TokenReader := do
  let r ← r.dropKey
  return { r with keyAllowed := true }.sign .comma 1

/-- The dash in front of an item. -/
def takeDash (r : TokenReader) : Except (Fault Mark) TokenReader := do
  unless r.inFlow || r.keyAllowed do
    throw (plainFault "block sequence entries are not allowed in this context" r.cursor.mark)
  let r ← (r.beginBlock .blockList).dropKey
  return { r with keyAllowed := true }.sign .dash 1

/-- The question mark in front of a key. -/
def takeKey (r : TokenReader) : Except (Fault Mark) TokenReader := do
  unless r.inFlow || r.keyAllowed do
    throw (plainFault "mapping keys are not allowed in this context" r.cursor.mark)
  let r ← (r.beginBlock .blockRecord).dropKey
  return { r with keyAllowed := !r.inFlow }.sign .key 1

/-- The colon in front of a value. It makes a key of the candidate, and begins a block record at it
unless one goes on there. -/
def takeValue (r : TokenReader) : Except (Fault Mark) TokenReader := do
  match r.key? with
  | some k =>
    let r := r.emitBefore k.number ⟨.key, k.mark, k.mark⟩
    let r :=
      if r.beginsBlock k.mark.column then
        { r with indents := k.mark.column :: r.indents }.emitBefore k.number
          ⟨.blockRecord, k.mark, k.mark⟩
      else r
    return { r with key? := none, keyAllowed := false }.sign .value 1
  | none =>
    unless r.inFlow || r.keyAllowed do
      throw (plainFault "mapping values are not allowed in this context" r.cursor.mark)
    let r := r.beginBlock .blockRecord
    return { r with keyAllowed := !r.inFlow }.sign .value 1

/-- A node that may become a key: what `read` makes of the characters at the cursor. -/
def takeNode (r : TokenReader)
    (read : TokenReader → Except (Fault Mark) (TokenKind × Bool × Cursor)) :
    Except (Fault Mark) TokenReader := do
  let r ← r.saveKey
  let (kind, keyAllowed, next) ← read r
  return { r with cursor := next, keyAllowed }.emit ⟨kind, r.cursor.mark, next.mark⟩

/-- An anchor, or an alias for one. -/
def takeAnchor (r : TokenReader) (isAlias : Bool) : Except (Fault Mark) TokenReader :=
  r.takeNode fun r ↦ (readAnchor isAlias r.cursor).map fun (name, next) ↦
    (if isAlias then .copyOf name else .anchor name, false, next)

/-- A tag. -/
def takeTag (r : TokenReader) : Except (Fault Mark) TokenReader :=
  r.takeNode fun r ↦ (readTag r.inFlow r.cursor).map fun (t, next) ↦ (.tag t, false, next)

/-- A quoted text. -/
def takeQuoted (r : TokenReader) (single : Bool) : Except (Fault Mark) TokenReader :=
  r.takeNode fun r ↦
    let inner := r.cursor.right 1
    (readQuoted single r.cursor.mark [] none inner.mark inner.rest).map fun t ↦
      (.scalar (String.ofList t.text) .quoted, false, t.cursor)

/-- A plain text. -/
def takePlain (r : TokenReader) : Except (Fault Mark) TokenReader :=
  r.takeNode fun r ↦
    (readPlain r.inFlow r.innerColumn r.cursor.mark [] none r.cursor.mark r.cursor.rest).map
      fun t ↦ (.scalar (String.ofList t.text) .plain, t.brokeLine, t.cursor)

/-- A text that is given line by line. -/
def takeLiteral (r : TokenReader) (folded : Bool) : Except (Fault Mark) TokenReader := do
  let r ← r.dropKey
  let t ← readLiteral folded r.innerColumn r.cursor
  return { r with cursor := t.cursor, keyAllowed := true }.emit
    ⟨.scalar (String.ofList t.text) (if folded then .quoted else .literal), r.cursor.mark,
      t.cursor.mark⟩

/-- The signs that no plain text begins with. -/
def reservedSigns : List Char := "-?:,[]\x7b\x7d#&*!|>'\"%@\x60".toList

/-- Whether a plain text may begin with a character. -/
def beginsPlain (inFlow : Bool) (c : Char) (rest : List Char) : Bool :=
  !(endsWord (c :: rest) || reservedSigns.contains c) ||
    (c == '-' && !rest.head?.any isBlank) ||
    (!inFlow && (c == '?' || c == ':') && !endsWord rest)

/-- The token that begins with a character. -/
def takeToken (r : TokenReader) (c : Char) (rest : List Char) :
    Except (Fault Mark) TokenReader :=
  let leading := r.cursor.mark.column = 0
  let marked (s : String) := leading && s.toList.isPrefixOf (c :: rest) && endsWord (rest.drop 2)
  let free := r.inFlow || endsWord rest
  if leading && c == '%' then r.takeDirective
  else if marked "---" then r.takeMark .documentStart
  else if marked "..." then r.takeMark .documentEnd
  else if c == '[' then r.openFlow .listOpen
  else if c == '\x7b' then r.openFlow .recordOpen
  else if c == ']' then r.closeFlow .listClose
  else if c == '\x7d' then r.closeFlow .recordClose
  else if c == ',' then r.takeComma
  else if c == '-' && endsWord rest then r.takeDash
  else if c == '?' && free then r.takeKey
  else if c == ':' && free then r.takeValue
  else if c == '*' then r.takeAnchor true
  else if c == '&' then r.takeAnchor false
  else if c == '!' then r.takeTag
  else if c == '|' && !r.inFlow then r.takeLiteral false
  else if c == '>' && !r.inFlow then r.takeLiteral true
  else if c == '\'' then r.takeQuoted true
  else if c == '"' then r.takeQuoted false
  else if beginsPlain r.inFlow c rest then r.takePlain
  else
    .error (fault "while scanning for the next token" r.cursor.mark
      "found character that cannot start any token" r.cursor.mark)

/-- The reader without the candidates that cannot become keys any more. -/
def dropStaleKeys (r : TokenReader) :
    Except (Fault Mark) (Option KeyCandidate × List (Option KeyCandidate)) := do
  return (← freshKey r.cursor.mark r.key?, ← r.outerKeys.mapM (freshKey r.cursor.mark))

/-- Takes one more token, or the end of the text. -/
def advance (r : TokenReader) : Except (Fault Mark) TokenReader := do
  let (keyAllowed, c) := skipIdle r.inFlow r.keyAllowed false r.cursor.mark r.cursor.rest
  let r := { r with cursor := c, keyAllowed }
  let (key?, outerKeys) ← r.dropStaleKeys
  let r := { r with key?, outerKeys }.endBlocks fun column ↦ c.mark.column < column
  match c.rest with
  | [] => r.endText
  | d :: rest => r.takeToken d rest

/-- Whether the first token that is held back may still turn out to be a key. -/
def awaitsKey (r : TokenReader) : Bool :=
  (r.key? :: r.outerKeys).any fun k ↦ k.any fun k ↦ k.number == r.delivered

/-- Delivers the tokens that are held back at the end of the text. -/
def drain (r : TokenReader) : List Token → List Token × Option (Fault Mark)
  | [] => ([], none)
  | t :: rest =>
    match r.dropStaleKeys with
    | .error f => ([], some f)
    | .ok (key?, outerKeys) =>
      let (ts, f) := drain { r with key?, outerKeys, delivered := r.delivered + 1 } rest
      (t :: ts, f)

/-- Delivers the first token that is held back, or else takes one more. -/
def step (r : TokenReader) : Except (Fault Mark) (List Token × TokenReader) :=
  match r.waiting with
  | [] => r.advance.map ([], ·)
  | t :: rest => do
    let (key?, outerKeys) ← r.dropStaleKeys
    let r := { r with key?, outerKeys }
    if r.awaitsKey then r.advance.map ([], ·)
    else return ([t], { r with waiting := rest, delivered := r.delivered + 1 })

/-- Whether the end of the text is held back. -/
def isAtEnd (r : TokenReader) : Bool := r.waiting.getLast?.any fun t ↦ t.kind == .streamEnd

/-- Whether fewer characters are left or, of as many, fewer tokens are held back. -/
def isAheadOf (next r : TokenReader) : Prop :=
  next.cursor.rest.length < r.cursor.rest.length ∨
    (next.cursor.rest.length = r.cursor.rest.length ∧ next.waiting.length < r.waiting.length)

instance (next r : TokenReader) : Decidable (next.isAheadOf r) :=
  inferInstanceAs (Decidable (_ ∨ _))

/-- The tokens from here on, and why there are no more of them unless the text ends there. -/
def tokens (r : TokenReader) : List Token × Option (Fault Mark) :=
  match r.step with
  | .error f => ([], some f)
  | .ok (delivered, next) =>
    let (ts, f) :=
      if next.isAtEnd then next.drain next.waiting
      else if next.isAheadOf r then next.tokens
      else ([], none)
    (delivered ++ ts, f)
termination_by (r.cursor.rest.length, r.waiting.length)
decreasing_by
  rename_i h
  rcases h with h | ⟨h, hw⟩
  · exact Prod.Lex.left _ _ h
  · rw [h]
    exact Prod.Lex.right _ hw

end TokenReader

/-- The tokens of a text, and why there are no more of them unless the text ends there. -/
def tokensOf (source : String) : List Token × Option (Fault Mark) :=
  match Cursor.ofText source with
  | .error f => ([], some f)
  | .ok c => (TokenReader.ofCursor c).tokens

end DataQuality.Yaml
