import DataQuality.Number.Text

/-!
# JSON values

Values as they stand in a text: members keep their order and may repeat a name, and a number is
an integer when it was written without point and exponent and fits 64 bits.
-/

namespace DataQuality

/-- A JSON value. -/
inductive Json where
  | null
  | bool (b : Bool)
  | int (i : Int)
  | float (x : Float)
  | text (s : String)
  | list (items : List Json)
  | object (members : List (String × Json))
  deriving Inhabited

namespace Json

/-- A list of texts. -/
def ofTexts (ss : List String) : Json := .list (ss.map .text)

/-- A natural number. -/
def ofNat (n : Nat) : Json := .int n

/-- A text, or null. -/
def ofText? : Option String → Json
  | some s => .text s
  | none => .null

/-- The first member with the name. -/
def member? (name : String) : Json → Option Json
  | .object members => members.lookup name
  | _ => none

/-- The four hexadecimal digits of an escaped control character. -/
def hexDigits (code : Nat) : List Char :=
  let digits := Nat.toDigits 16 code
  List.replicate (4 - digits.length) '0' ++ digits

/-- A character inside a quoted text. -/
def escapeChar (c : Char) : List Char :=
  if c = '"' then ['\\', '"']
  else if c = '\\' then ['\\', '\\']
  else if c = '\n' then ['\\', 'n']
  else if c = '\r' then ['\\', 'r']
  else if c = '\t' then ['\\', 't']
  else if c = '\x08' then ['\\', 'b']
  else if c = '\x0c' then ['\\', 'f']
  else if c.toNat < 0x20 then '\\' :: 'u' :: hexDigits c.toNat
  else [c]

/-- A text in quotes. -/
def quote (s : String) : String :=
  String.ofList ('"' :: (s.toList.flatMap escapeChar ++ ['"']))

/-- A float: infinities and values that are not numbers become `null`. -/
def floatText (x : Float) : String := (Number.scientificText? x).getD "null"

/-- The way a writer breaks lines: nothing at all, or one line an item, indented by two blanks a
level. -/
inductive Layout where
  | compact
  | indented (level : Nat)

/-- The line break before an item one level further in. -/
def Layout.inner : Layout → String
  | .compact => ""
  | .indented level => "\n" ++ String.ofList (List.replicate (2 * (level + 1)) ' ')

/-- The line break before a closing bracket. -/
def Layout.outer : Layout → String
  | .compact => ""
  | .indented level => "\n" ++ String.ofList (List.replicate (2 * level) ' ')

/-- What stands between a name and its value. -/
def Layout.colon : Layout → String
  | .compact => ":"
  | .indented _ => ": "

/-- The layout one level further in. -/
def Layout.deeper : Layout → Layout
  | .compact => .compact
  | .indented level => .indented (level + 1)

mutual

/-- Writes a value. -/
def render (layout : Layout) : Json → String
  | .null => "null"
  | .bool true => "true"
  | .bool false => "false"
  | .int i => Number.intText i
  | .float x => floatText x
  | .text s => quote s
  | .list [] => "[]"
  | .list (item :: items) =>
    "[" ++ layout.inner ++ render layout.deeper item ++ renderItems layout items ++ layout.outer ++
      "]"
  | .object [] => "\x7b\x7d"
  | .object ((name, value) :: members) =>
    "\x7b" ++ layout.inner ++ quote name ++ layout.colon ++ render layout.deeper value ++
      renderMembers layout members ++ layout.outer ++ "\x7d"

/-- Writes the items after the first, each behind a comma. -/
def renderItems (layout : Layout) : List Json → String
  | [] => ""
  | item :: items =>
    "," ++ layout.inner ++ render layout.deeper item ++ renderItems layout items

/-- Writes the members after the first, each behind a comma. -/
def renderMembers (layout : Layout) : List (String × Json) → String
  | [] => ""
  | (name, value) :: members =>
    "," ++ layout.inner ++ quote name ++ layout.colon ++ render layout.deeper value ++
      renderMembers layout members

end

/-- The value on one line, without blanks. -/
def compact (v : Json) : String := render .compact v

/-- The value with one item a line. -/
def pretty (v : Json) : String := render (.indented 0) v

end Json

end DataQuality
