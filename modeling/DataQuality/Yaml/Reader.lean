import DataQuality.Yaml.Token

/-!
# Reading YAML

Tokens are put together to a tree of nodes. Where they do not fit, or come to an end too early, the
tree has a broken node, as in all documents. An alias stands for a copy of the node with its anchor.
-/

namespace DataQuality.Yaml

/-- The extent of a node that begins at a mark; messages name the beginning of nodes only. -/
def extentAt (m : Mark) : Extent Mark := ⟨m, m, m⟩

/-- A node of which nothing was written. -/
def voidNode (m : Mark) : Node Mark := .leaf (extentAt m) (.scalar ⟨"", .plain, none⟩)

/-- The tokens that are left, why there are no more of them, the nodes with anchors and what the
handles of tags stand for. -/
structure Feed where
  tokens : List Token
  fault : Fault Mark
  anchors : List (String × Node Mark)
  handles : List (String × String)

namespace Feed

/-- The first token. -/
def peek (feed : Feed) : Except (Fault Mark) Token :=
  match feed.tokens with
  | t :: _ => .ok t
  | [] => .error feed.fault

/-- What is left behind the first token. -/
def next (feed : Feed) : Feed := { feed with tokens := feed.tokens.drop 1 }

/-- Remembers a node with an anchor. -/
def remember (feed : Feed) (anchor : Option String) (n : Node Mark) : Feed :=
  match anchor with
  | some name => { feed with anchors := (name, n) :: feed.anchors }
  | none => feed

end Feed

/-- What stands in front of a node: where it begins, its anchor, and its tag with its place. -/
structure Properties where
  start : Mark
  anchor : Option String
  tag : Option (WrittenTag × Mark)

namespace Properties

/-- Whether there are any. -/
def isGiven (p : Properties) : Bool := p.anchor.isSome || p.tag.isSome

/-- Takes an anchor, unless there is one already. -/
def takeAnchor (p : Properties) (feed : Feed) : Except (Fault Mark) (Properties × Feed) :=
  feed.peek.map fun t ↦
    match t.kind, p.anchor with
    | .anchor name, none => ({ p with anchor := some name }, feed.next)
    | _, _ => (p, feed)

/-- Takes a tag, unless there is one already. -/
def takeTag (p : Properties) (feed : Feed) : Except (Fault Mark) (Properties × Feed) :=
  feed.peek.map fun t ↦
    match t.kind, p.tag with
    | .tag name, none => ({ p with tag := some (name, t.start) }, feed.next)
    | _, _ => (p, feed)

/-- Takes the properties in front of a node, an anchor and a tag in either order. -/
def take (feed : Feed) : Except (Fault Mark) (Properties × Feed) := do
  let t ← feed.peek
  let (p, feed) ← takeAnchor ⟨t.start, none, none⟩ feed
  let (p, feed) ← p.takeTag feed
  p.takeAnchor feed

/-- The whole tag. -/
def fullTag (p : Properties) (handles : List (String × String)) :
    Except (Fault Mark) (Option String) :=
  match p.tag with
  | none => .ok none
  | some (t, m) =>
    if t.handle.isEmpty then .ok (some t.suffix)
    else match handles.lookup t.handle with
      | some lead => .ok (some (lead ++ t.suffix))
      | none => .error (fault "while parsing a node" p.start "found undefined tag handle" m)

end Properties

/-- The leaf of a scalar; the exclamation mark alone says nothing about it. -/
def leafOf (m : Mark) (text : String) (style : Style) (tag : Option String) : Node Mark :=
  .leaf (extentAt m) (.scalar ⟨text, style, if tag = some "!" then none else tag⟩)

/-- What a reader got, and what it left unless it stopped. -/
abbrev Got (α : Type) := α × Option Feed

/-- A member of which the key could not be read. -/
def brokenMember (f : Fault Mark) : Node Mark × Node Mark := (.broken f, .broken f)

/-- Goes on with a reader of more members behind a member. -/
def withMember (key value : Node Mark) (feed? : Option Feed)
    (more : Feed → Got (List (Node Mark × Node Mark))) : Got (List (Node Mark × Node Mark)) :=
  match feed? with
  | none => ([(key, value)], none)
  | some feed =>
    let (members, rest) := more feed
    ((key, value) :: members, rest)

/-- Goes on with a reader of more items behind an item. -/
def withItem (item : Got (Node Mark)) (more : Feed → Got (List (Node Mark))) :
    Got (List (Node Mark)) :=
  match item.2 with
  | none => ([item.1], none)
  | some feed =>
    let (items, rest) := more feed
    (item.1 :: items, rest)

/-- Reads a node unless one of some tokens shows that nothing was written, at the given place. -/
def unlessAt (ends : List TokenKind) (m : Token → Mark) (feed : Feed)
    (read : Feed → Got (Node Mark)) : Got (Node Mark) :=
  match feed.peek with
  | .error f => (.broken f, none)
  | .ok t => if ends.contains t.kind then (voidNode (m t), some feed) else read feed

/-- Reads the value of a member in front of which a colon stands, if one does. -/
def valueOf (ends : List TokenKind) (m : Token → Token → Mark) (feed : Feed)
    (read : Feed → Got (Node Mark)) : Got (Node Mark) :=
  match feed.peek with
  | .error f => (.broken f, none)
  | .ok colon =>
    if colon.kind = .value then unlessAt ends (m colon) feed.next read
    else (voidNode colon.start, some feed)

/-- The tokens in front of which a node in a block record was left out. -/
def blockEnds : List TokenKind := [.key, .value, .blockEnd]

/-- The node of a collection, and what is left once it is remembered. -/
def collect (p : Properties) (n : Node Mark) (feed? : Option Feed) : Got (Node Mark) :=
  (n, feed?.map (·.remember p.anchor n))

mutual

/-- Reads a node. Only inside a block collection may `block` collections begin, and only in a block
record may the items of a list be `level` with its keys. -/
def readNode (block level : Bool) : (fuel : Nat) → Feed → Got (Node Mark)
  | 0, feed => (.broken feed.fault, none)
  | fuel + 1, feed =>
    match feed.peek with
    | .error f => (.broken f, none)
    | .ok t =>
      match t.kind with
      | .copyOf name =>
        match feed.anchors.lookup name with
        | some n => (n, some feed.next)
        | none => (.broken (plainFault "unknown anchor" t.start), none)
      | _ =>
        match Properties.take feed with
        | .error f => (.broken f, none)
        | .ok (p, feed) =>
          match p.fullTag feed.handles with
          | .error f => (.broken f, none)
          | .ok tag => readContent block level p tag fuel feed

/-- Reads a node behind its properties. -/
def readContent (block level : Bool) (p : Properties) (tag : Option String) :
    (fuel : Nat) → Feed → Got (Node Mark)
  | 0, feed => (.broken feed.fault, none)
  | fuel + 1, feed =>
    match feed.peek with
    | .error f => (.broken f, none)
    | .ok t =>
      let e := extentAt p.start
      let inner := feed.next.remember p.anchor
        (.broken (plainFault "recursion limit exceeded" p.start))
      match t.kind, block, level with
      | .dash, _, true =>
        let (items, rest) := readLevelItems fuel { inner with tokens := feed.tokens }
        collect p (.list e items) rest
      | .scalar text style, _, _ =>
        let n := leafOf p.start text style tag
        (n, some (feed.next.remember p.anchor n))
      | .listOpen, _, _ =>
        let (items, rest) := readListItems true t.start fuel inner
        collect p (.list e items) rest
      | .recordOpen, _, _ =>
        let (members, rest) := readRecordMembers true t.start fuel inner
        collect p (.record e members) rest
      | .blockList, true, _ =>
        let (items, rest) := readBlockItems t.start fuel inner
        collect p (.list e items) rest
      | .blockRecord, true, _ =>
        let (members, rest) := readBlockMembers t.start fuel inner
        collect p (.record e members) rest
      | _, _, _ =>
        if p.isGiven then
          let n := Node.leaf e (.scalar ⟨"", .plain, tag⟩)
          (n, some (feed.remember p.anchor n))
        else
          (.broken (fault
            (if block then "while parsing a block node" else "while parsing a flow node") p.start
            "did not find expected node content" t.start), none)

/-- Reads the items of a block list that began at `start`. -/
def readBlockItems (start : Mark) : (fuel : Nat) → Feed → Got (List (Node Mark))
  | 0, feed => ([.broken feed.fault], none)
  | fuel + 1, feed =>
    match feed.peek with
    | .error f => ([.broken f], none)
    | .ok t =>
      match t.kind with
      | .dash =>
        withItem
          (unlessAt [.dash, .blockEnd] (fun _ ↦ t.stop) feed.next (readNode true false fuel))
          (readBlockItems start fuel)
      | .blockEnd => ([], some feed.next)
      | _ =>
        ([.broken (fault "while parsing a block collection" start
          "did not find expected '-' indicator" t.start)], none)

/-- Reads the items of a block list that stands level with the keys around it. -/
def readLevelItems : (fuel : Nat) → Feed → Got (List (Node Mark))
  | 0, feed => ([.broken feed.fault], none)
  | fuel + 1, feed =>
    match feed.peek with
    | .error f => ([.broken f], none)
    | .ok t =>
      match t.kind with
      | .dash =>
        withItem
          (unlessAt [.dash, .key, .value, .blockEnd] (fun _ ↦ t.stop) feed.next
            (readNode true false fuel))
          (readLevelItems fuel)
      | _ => ([], some feed)

/-- Reads the members of a block record that began at `start`. -/
def readBlockMembers (start : Mark) : (fuel : Nat) → Feed → Got (List (Node Mark × Node Mark))
  | 0, feed => ([brokenMember feed.fault], none)
  | fuel + 1, feed =>
    match feed.peek with
    | .error f => ([brokenMember f], none)
    | .ok t =>
      match t.kind with
      | .key =>
        let (key, rest) :=
          unlessAt blockEnds (fun _ ↦ t.stop) feed.next (readNode true true fuel)
        match rest with
        | none => ([(key, voidNode t.stop)], none)
        | some feed =>
          let (value, rest) :=
            valueOf blockEnds (fun colon _ ↦ colon.stop) feed (readNode true true fuel)
          withMember key value rest (readBlockMembers start fuel)
      | .blockEnd => ([], some feed.next)
      | _ =>
        ([brokenMember (fault "while parsing a block mapping" start "did not find expected key"
          t.start)], none)

/-- Reads the items of a list in brackets that began at `start`. -/
def readListItems (first : Bool) (start : Mark) : (fuel : Nat) → Feed → Got (List (Node Mark))
  | 0, feed => ([.broken feed.fault], none)
  | fuel + 1, feed =>
    match feed.peek with
    | .error f => ([.broken f], none)
    | .ok t =>
      match t.kind, first with
      | .listClose, _ => ([], some feed.next)
      | .comma, false =>
        match feed.next.peek with
        | .error f => ([.broken f], none)
        | .ok u =>
          if u.kind = .listClose then ([], some feed.next.next)
          else withItem (readListItem fuel feed.next) (readListItems false start fuel)
      | _, true => withItem (readListItem fuel feed) (readListItems false start fuel)
      | _, false =>
        ([.broken (fault "while parsing a flow sequence" start
          "did not find expected ',' or ']'" t.start)], none)

/-- Reads an item of a list in brackets, which may be a single member of a record. -/
def readListItem : (fuel : Nat) → Feed → Got (Node Mark)
  | 0, feed => (.broken feed.fault, none)
  | fuel + 1, feed =>
    match feed.peek with
    | .error f => (.broken f, none)
    | .ok t =>
      if t.kind = .key then
        let (members, rest) := readSingleMember fuel feed.next
        (.record (extentAt t.start) members, rest)
      else readNode false false fuel feed

/-- Reads the only member of a record without brackets in a list. A sign in the place of its key is
taken for the key. -/
def readSingleMember : (fuel : Nat) → Feed → Got (List (Node Mark × Node Mark))
  | 0, feed => ([brokenMember feed.fault], none)
  | fuel + 1, feed =>
    match feed.peek with
    | .error f => ([brokenMember f], none)
    | .ok t =>
      let (key, rest) :=
        if [.value, .comma, .listClose].contains t.kind then (voidNode t.stop, some feed.next)
        else readNode false false fuel feed
      match rest with
      | none => ([(key, voidNode t.stop)], none)
      | some feed =>
        let (value, rest) :=
          valueOf [.comma, .listClose] (fun _ u ↦ u.start) feed (readNode false false fuel)
        ([(key, value)], rest)

/-- Reads the members of a record in brackets that began at `start`. -/
def readRecordMembers (first : Bool) (start : Mark) :
    (fuel : Nat) → Feed → Got (List (Node Mark × Node Mark))
  | 0, feed => ([brokenMember feed.fault], none)
  | fuel + 1, feed =>
    match feed.peek with
    | .error f => ([brokenMember f], none)
    | .ok t =>
      match t.kind, first with
      | .recordClose, _ => ([], some feed.next)
      | .comma, false =>
        match feed.next.peek with
        | .error f => ([brokenMember f], none)
        | .ok u =>
          if u.kind = .recordClose then ([], some feed.next.next)
          else readRecordMember start fuel feed.next
      | _, true => readRecordMember start fuel feed
      | _, false =>
        ([brokenMember (fault "while parsing a flow mapping" start
          "did not find expected ',' or '\x7d'" t.start)], none)

/-- Reads a member of a record in brackets and those behind it; a node that is no key has no
value. -/
def readRecordMember (start : Mark) : (fuel : Nat) → Feed → Got (List (Node Mark × Node Mark))
  | 0, feed => ([brokenMember feed.fault], none)
  | fuel + 1, feed =>
    match feed.peek with
    | .error f => ([brokenMember f], none)
    | .ok t =>
      let isKey := t.kind = .key
      let (key, rest) :=
        if isKey then
          unlessAt [.value, .comma, .recordClose] Token.start feed.next (readNode false false fuel)
        else readNode false false fuel feed
      match rest with
      | none => ([(key, voidNode t.stop)], none)
      | some feed =>
        let (value, rest) :=
          if isKey then
            valueOf [.comma, .recordClose] (fun _ u ↦ u.start) feed (readNode false false fuel)
          else match feed.peek with
            | .error f => (.broken f, none)
            | .ok u => (voidNode u.start, some feed)
        withMember key value rest (readRecordMembers false start fuel)

end

/-- What the handles of tags stand for in every document. -/
def commonHandles : List (String × String) := [("!", "!"), ("!!", Tag.common)]

/-- Reads the directives in front of a document, of which each may be given once. -/
def readDirectives (versioned : Bool) (handles : List (String × String)) :
    List Token → Except (Fault Mark) (List (String × String) × List Token)
  | ⟨.directive (.version major minor), m, _⟩ :: rest =>
    if versioned then .error (plainFault "found duplicate %YAML directive" m)
    else if major = 1 ∧ (minor = 1 ∨ minor = 2) then readDirectives true handles rest
    else .error (plainFault "found incompatible YAML document" m)
  | ⟨.directive (.tag handle lead), m, _⟩ :: rest =>
    if (handles.lookup handle).isSome then
      .error (plainFault "found duplicate %TAG directive" m)
    else readDirectives versioned ((handle, lead) :: handles) rest
  | rest => .ok (handles, rest)

/-- The tokens that show that a document has no node. -/
def endsDocument : TokenKind → Bool
  | .directive _ | .documentStart | .documentEnd | .streamEnd => true
  | _ => false

/-- How many steps reading may take: each takes a token, or is the second one before it does. -/
def fuelFor (feed : Feed) : Nat := 4 * feed.tokens.length + 8

/-- Reads the node of a document behind its directives. -/
def readRoot (feed : Feed) : Got (Node Mark) :=
  match feed.peek with
  | .error f => (.broken f, none)
  | .ok t =>
    if t.kind = .documentStart then
      match feed.next.peek with
      | .error f => (.broken f, none)
      | .ok u =>
        if endsDocument u.kind then (voidNode u.start, some feed.next)
        else readNode true false (fuelFor feed) feed.next
    else (.broken (plainFault "did not find expected <document start>" t.start), none)

/-- Reads a document that may do without a mark at its beginning. -/
def readFirst (feed : Feed) : Got (Node Mark) :=
  match feed.peek with
  | .error f => (.broken f, none)
  | .ok t =>
    match t.kind with
    | .streamEnd => (voidNode t.start, some feed)
    | .directive _ | .documentStart =>
      match readDirectives false [] feed.tokens with
      | .error f => (.broken f, none)
      | .ok (handles, tokens) => readRoot { feed with tokens, handles := handles ++ feed.handles }
    | _ => readNode true false (fuelFor feed) feed

/-- Whether nothing but marks of the end of a document is left. -/
def isSpent : List Token → Bool
  | ⟨.documentEnd, _, _⟩ :: rest => isSpent rest
  | [⟨.streamEnd, _, _⟩] => true
  | _ => false

/-- Why nothing may be left behind a document, if something is. -/
def tailFault? (feed : Feed) : Option (Fault Mark) :=
  match feed.peek with
  | .error f => some f
  | .ok _ =>
    if isSpent feed.tokens then none
    else
      some (plainFault
        "deserializing from YAML containing more than one document is not supported" ⟨0, 0⟩)

/-- Reads a whole text as one document. -/
def read (source : String) : Document Mark :=
  let (tokens, fault?) := tokensOf source
  let feed : Feed :=
    ⟨tokens, fault?.getD (plainFault "EOF while parsing a value" ⟨0, 0⟩), [], commonHandles⟩
  let (root, rest) := readFirst feed
  ⟨root, rest.bind tailFault?⟩

end DataQuality.Yaml
