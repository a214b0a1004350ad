import DataQuality.Url.Percent
import DataQuality.Yaml.Cursor

/-!
# Anchors, tags and directives

What may stand in front of a node, to name it or to say of what kind it is, and what may stand in
front of a document.
-/

namespace DataQuality.Yaml

/-- A tag as it is written: a handle that stands for the beginning of the tag, and the rest. -/
structure WrittenTag where
  handle : String
  suffix : String
  deriving DecidableEq, Repr, Inhabited

/-- A line in front of a document: the version of the notation, or what a handle of tags stands
for. -/
inductive Directive where
  | version (major minor : Nat)
  | tag (handle lead : String)
  deriving DecidableEq, Repr, Inhabited

/-- Reads the name of an anchor behind its sign, which stands at the cursor. -/
def readAnchor (isAlias : Bool) (c : Cursor) : Except (Fault Mark) (String × Cursor) :=
  let (name, next) := (c.right 1).span isNameChar
  let ends := endsWord next.rest || next.rest.head?.any fun d ↦
    d == '?' || d == ':' || d == ',' || d == ']' || d == '\x7d' || d == '%' || d == '@' ||
      d.toNat == 0x60
  if name.isEmpty || !ends then
    .error (fault (if isAlias then "while scanning an alias" else "while scanning an anchor") c.mark
      "did not find expected alphabetic or numeric character" next.mark)
  else .ok (String.ofList name, next)

/-- Whether a character may occur in a tag; some signs only may where it is marked off. -/
def isTagChar (markedOff : Bool) (c : Char) : Bool :=
  isNameChar c || ";/?:@&=+$.%!~*'()".toList.contains c ||
    (markedOff && (c == ',' || c == '[' || c == ']'))

/-- How many bytes of a character follow its first byte. -/
def furtherBytes? (first : Nat) : Option Nat :=
  if first < 0x80 then some 0
  else if 0xC0 ≤ first ∧ first < 0xE0 then some 1
  else if 0xE0 ≤ first ∧ first < 0xF0 then some 2
  else if 0xF0 ≤ first ∧ first < 0xF8 then some 3
  else none

/-- How many bytes still have to follow an escaped byte, of which `pending` are open before it. -/
def pendingAfter (pending byte : Nat) : Except String Nat :=
  match pending with
  | 0 =>
    match furtherBytes? byte with
    | some n => .ok n
    | none => .error "found an incorrect leading UTF-8 octet"
  | n + 1 =>
    if 0x80 ≤ byte ∧ byte < 0xC0 then .ok n
    else .error "found an incorrect trailing UTF-8 octet"

/-- Reads the bytes of a tag; `pending` bytes of an escaped character are still to come. -/
def readTagBytes (context : String) (start : Mark) (markedOff : Bool) (pending : Nat) (m : Mark) :
    List Char → Except (Fault Mark) (List UInt8 × Cursor)
  | '%' :: a :: b :: rest =>
    match Text.naturalIn? 16 [a, b] with
    | none => .error (fault context start "did not find URI escaped octet" m)
    | some byte =>
      match pendingAfter pending byte with
      | .error problem => .error (fault context start problem m)
      | .ok pending =>
        (readTagBytes context start markedOff pending (m.rightBy 3) rest).map fun r ↦
          (UInt8.ofNat byte :: r.1, r.2)
  | c :: rest =>
    if 0 < pending ∨ c = '%' then
      .error (fault context start "did not find URI escaped octet" m)
    else if isTagChar markedOff c then
      (readTagBytes context start markedOff 0 m.right rest).map fun r ↦
        (UInt8.ofNat c.toNat :: r.1, r.2)
    else .ok ([], ⟨c :: rest, m⟩)
  | [] =>
    if 0 < pending then .error (fault context start "did not find URI escaped octet" m)
    else .ok ([], ⟨[], m⟩)

/-- Reads a tag or a part of one that goes on with `lead`. -/
def readTagText (context : String) (start : Mark) (markedOff : Bool) (lead : List Char)
    (c : Cursor) : Except (Fault Mark) (String × Cursor) := do
  let (bytes, next) ← readTagBytes context start markedOff 0 c.mark c.rest
  if lead.isEmpty && bytes.isEmpty then
    throw (fault context start "did not find expected tag URI" next.mark)
  return (String.ofList (lead.drop 1) ++ Text.ofBytesReplacing bytes, next)

/-- Reads a handle of tags: name characters between two exclamation marks, the second of which may
be missing. -/
def readHandle (c : Cursor) : List Char × Cursor :=
  let (name, next) := (c.right 1).span isNameChar
  match next.rest with
  | '!' :: _ => ('!' :: name ++ ['!'], next.right 1)
  | _ => ('!' :: name, next)

/-- Whether a handle is complete. -/
def isHandle (handle : List Char) : Bool := 1 < handle.length && handle.getLast? == some '!'

/-- Reads a tag without the check of what follows it. -/
def readTagParts (c : Cursor) : Except (Fault Mark) (WrittenTag × Cursor) :=
  let context := "while parsing a tag"
  match c.rest.drop 1 with
  | '<' :: _ => do
    let (suffix, next) ← readTagText context c.mark true [] (c.right 2)
    if next.rest.head? ≠ some '>' then
      throw (fault "while scanning a tag" c.mark "did not find the expected '>'" next.mark)
    return (⟨"", suffix⟩, next.right 1)
  | _ =>
    let (handle, next) := readHandle c
    if isHandle handle then do
      let (suffix, next) ← readTagText context c.mark false [] next
      return (⟨String.ofList handle, suffix⟩, next)
    else do
      let (suffix, next) ← readTagText context c.mark false handle next
      return (if suffix.isEmpty then ⟨"", "!"⟩ else ⟨"!", suffix⟩, next)

/-- Reads a tag, which stands at the cursor. -/
def readTag (inFlow : Bool) (c : Cursor) : Except (Fault Mark) (WrittenTag × Cursor) := do
  let (tag, next) ← readTagParts c
  if endsWord next.rest || (inFlow && next.rest.head? = some ',') then return (tag, next)
  throw (fault "while scanning a tag" c.mark "did not find expected whitespace or line break"
    next.mark)

/-- Reads a number of a version. -/
def readVersionNumber (start : Mark) (c : Cursor) : Except (Fault Mark) (Nat × Cursor) :=
  let context := "while scanning a %YAML directive"
  let (digits, next) := c.span Text.isDigit
  if digits.isEmpty then
    .error (fault context start "did not find expected version number" next.mark)
  else if 9 < digits.length then
    .error (fault context start "found extremely long version number" (c.mark.rightBy 9))
  else .ok (Number.digitsValue digits, next)

/-- Reads the version of the notation. -/
def readVersion (start : Mark) (c : Cursor) : Except (Fault Mark) (Directive × Cursor) := do
  let (major, c) ← readVersionNumber start c.skipBlanks
  if c.rest.head? ≠ some '.' then
    throw (fault "while scanning a %YAML directive" start
      "did not find expected digit or '.' character" c.mark)
  let (minor, c) ← readVersionNumber start (c.right 1)
  return (.version major minor, c)

/-- Reads what a handle of tags stands for. -/
def readTagDirective (start : Mark) (c : Cursor) : Except (Fault Mark) (Directive × Cursor) := do
  let context := "while scanning a %TAG directive"
  let c := c.skipBlanks
  if c.rest.head? ≠ some '!' then
    throw (fault "while scanning a tag directive" start "did not find expected '!'" c.mark)
  let (handle, c) := readHandle c
  unless isHandle handle || handle.length = 1 do
    throw (fault "while parsing a tag directive" start "did not find expected '!'" c.mark)
  unless c.rest.head?.any isBlank do
    throw (fault context start "did not find expected whitespace" c.mark)
  let (lead, c) ← readTagText "while parsing a %TAG directive" start true [] c.skipBlanks
  unless endsWord c.rest do
    throw (fault context start "did not find expected whitespace or line break" c.mark)
  return (.tag (String.ofList handle) lead, c)

/-- Reads a directive with the end of its line; its sign stands at the cursor. -/
def readDirective (c : Cursor) : Except (Fault Mark) (Directive × Cursor) := do
  let start := c.mark
  let context := "while scanning a directive"
  let (name, c) := (c.right 1).span isNameChar
  if name.isEmpty then
    throw (fault context start "could not find expected directive name" c.mark)
  unless endsWord c.rest do
    throw (fault context start "found unexpected non-alphabetical character" c.mark)
  let (directive, c) ←
    if name = "YAML".toList then readVersion start c
    else if name = "TAG".toList then readTagDirective start c
    else throw (fault context start "found unknown directive name" c.mark)
  let c := c.skipComment
  unless endsLine c.rest do
    throw (fault context start "did not find expected comment or line break" c.mark)
  return (directive, c.takeBreak.2)

end DataQuality.Yaml
