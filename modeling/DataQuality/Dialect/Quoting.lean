import DataQuality.Dialect.Support

/-!
# Names and literals in SQL

How each dialect writes names, texts and numbers. Every character inside quotes that could end
them is escaped.
-/

namespace DataQuality

/-- A way to quote: the quotation mark, the character put before a mark inside, and whether a
backslash inside is doubled. -/
structure QuoteStyle where
  mark : Char
  escape : Char
  doublesBackslash : Bool
  deriving DecidableEq, Repr

namespace QuoteStyle

/-- A character as it stands inside quotes. -/
def escapeChar (q : QuoteStyle) (c : Char) : List Char :=
  if c = q.mark then [q.escape, c]
  else if c = '\\' ∧ q.doublesBackslash then ['\\', '\\']
  else [c]

/-- Characters in quotes. -/
def quoteChars (q : QuoteStyle) (cs : List Char) : List Char :=
  q.mark :: (cs.flatMap q.escapeChar ++ [q.mark])

/-- A text in quotes. -/
def quote (q : QuoteStyle) (s : String) : String := String.ofList (q.quoteChars s.toList)

end QuoteStyle

namespace Warehouse

/-- The backquote. -/
def backquote : Char := Char.ofNat 0x60

/-- How the dialect quotes names. -/
def identifierStyle : Warehouse → QuoteStyle
  | .postgreSQL | .sqlite | .snowflake => ⟨'"', '"', false⟩
  | .mySQL => ⟨backquote, backquote, false⟩
  | .bigQuery => ⟨backquote, '\\', false⟩

/-- How the dialect quotes texts. -/
def literalStyle : Warehouse → QuoteStyle
  | .postgreSQL | .sqlite => ⟨'\'', '\'', false⟩
  | .mySQL | .snowflake => ⟨'\'', '\'', true⟩
  | .bigQuery => ⟨'\'', '\\', true⟩

/-- A name in quotes. -/
def quoteIdentifier (w : Warehouse) (name : String) : String := w.identifierStyle.quote name

/-- A text as a literal. -/
def stringLiteral (w : Warehouse) (value : String) : String := w.literalStyle.quote value

/-- The parts of a name between its dots. -/
def nameParts (name : String) : List String :=
  (Text.splitAll '.' name.toList).map String.ofList

/-- A part of the name of a table as the dialect spells it: unquoted names are kept in capitals by
some warehouses, and quoted ones have to match. -/
def tablePart : Warehouse → String → String
  | .snowflake, part => Text.upper part
  | _, part => part

/-- The name of a table, each part in quotes. -/
def qualifyTable (w : Warehouse) (table : String) : String :=
  Text.join "." ((nameParts table).map fun part ↦ w.quoteIdentifier (w.tablePart part))

/-- Whole numbers below this size are rounded to tenths, which puts a point and a zero behind
them. -/
def pointedBelow : Nat := Nat.pow 10 15

/-- A float as a literal. -/
def floatLiteral (x : Float) : String :=
  match Number.toInt? x with
  | some i => if i.natAbs < pointedBelow then Number.tenthsText x else Number.plainText x
  | none => Number.plainText x

/-- A literal of a document in SQL; `asText` writes numbers as texts too. -/
def literal (w : Warehouse) (asText : Bool) : Literal → String
  | .text s => w.stringLiteral s
  | .int i =>
    if asText then w.stringLiteral (Literal.int i).display else Number.intText i.toInt
  | .float x => if asText then w.stringLiteral (Literal.float x).display else floatLiteral x

/-- Literals between commas. -/
def literalList (w : Warehouse) (values : List Literal) (asText : Bool) : String :=
  Text.commaSeparated (values.map (w.literal asText))

end Warehouse

end DataQuality
