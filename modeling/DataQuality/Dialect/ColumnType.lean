import DataQuality.Warehouse

/-!
# Column types

What the name of a column's type says about its values. The names differ from one warehouse to
the next; one of them judges names by the words that occur in them.
-/

namespace DataQuality

/-- The name of a type without its arguments, in lower case. -/
def baseType (dataType : String) : String :=
  Text.lower (Text.trim (String.ofList (dataType.toList.takeWhile (· != '('))))

/-- The types of a dialect by what they hold. -/
structure TypeNames where
  texts : List String
  numbers : List String
  times : List String

namespace Warehouse

/-- The names of types; a warehouse without fixed names has none. -/
def typeNames : Warehouse → TypeNames
  | .postgreSQL =>
    ⟨["character varying", "varchar", "character", "char", "bpchar", "text", "name", "citext"],
      ["smallint", "integer", "bigint", "int2", "int4", "int8", "decimal", "numeric", "real",
        "double precision", "float4", "float8", "smallserial", "serial", "bigserial"],
      ["date", "time", "timestamp", "time without time zone", "time with time zone",
        "timestamp without time zone", "timestamp with time zone", "timestamptz", "interval"]⟩
  | .mySQL =>
    ⟨["char", "varchar", "tinytext", "text", "mediumtext", "longtext", "enum", "set"],
      ["tinyint", "smallint", "mediumint", "int", "integer", "bigint", "decimal", "numeric",
        "float", "double", "real"],
      ["date", "time", "datetime", "timestamp", "year"]⟩
  | .sqlite => ⟨[], [], []⟩
  | .snowflake =>
    ⟨["varchar", "char", "character", "string", "text"],
      ["number", "int", "integer", "bigint", "smallint", "tinyint", "byteint", "float", "float4",
        "float8", "double", "double precision", "real", "decimal", "numeric"],
      ["date", "datetime", "time", "timestamp", "timestamp_ltz", "timestamp_ntz",
        "timestamp_tz"]⟩
  | .bigQuery =>
    ⟨["string"],
      ["int64", "integer", "int", "smallint", "bigint", "numeric", "bignumeric", "float64",
        "decimal"],
      ["date", "datetime", "time", "timestamp"]⟩

/-- Cutting a word off the end leaves fewer characters. -/
theorem length_dropWord_lt {word cs : List Char}
    (h : word ≠ [] ∧ word.reverse.isPrefixOf cs.reverse = true) :
    cs.length - word.length < cs.length := by
  have hlen := (List.isPrefixOf_iff_prefix.mp h.2).length_le
  have hpos : 0 < word.length := List.length_pos_iff.mpr h.1
  simp only [List.length_reverse] at hlen
  omega

/-- Removes a word from the end as often as it stands there. -/
def dropWord (word cs : List Char) : List Char :=
  if h : word ≠ [] ∧ word.reverse.isPrefixOf cs.reverse = true then
    have := length_dropWord_lt h
    dropWord word (cs.take (cs.length - word.length))
  else cs
termination_by cs.length
decreasing_by simpa only [List.length_take, Nat.min_eq_left (Nat.sub_le _ _)] using this

/-- The name of a number type without the word that it is unsigned. -/
def signedType (base : String) : String :=
  String.ofList (dropWord [' ', 'u', 'n', 's', 'i', 'g', 'n', 'e', 'd'] base.toList)

/-- Whether one of the words occurs in the name of a type, in any letter case. -/
def mentions (dataType : String) (words : List String) : Bool :=
  words.any fun word ↦ Text.contains (Text.upper dataType) word

/-- Whether columns of the type hold texts. -/
def isText (w : Warehouse) (dataType : String) : Bool :=
  match w with
  | .sqlite => !mentions dataType ["INT"] && mentions dataType ["CHAR", "CLOB", "TEXT"]
  | w => w.typeNames.texts.contains (baseType dataType)

/-- Whether columns of the type hold numbers. -/
def isNumber (w : Warehouse) (dataType : String) : Bool :=
  match w with
  | .sqlite => mentions dataType ["INT", "REAL", "FLOA", "DOUB", "NUMERIC", "DECIMAL"]
  | .mySQL => (typeNames .mySQL).numbers.contains (signedType (baseType dataType))
  | w => w.typeNames.numbers.contains (baseType dataType)

/-- Whether columns of the type hold dates or times. -/
def isTime (w : Warehouse) (dataType : String) : Bool :=
  match w with
  | .sqlite => mentions dataType ["DATE", "TIME"]
  | w => w.typeNames.times.contains (baseType dataType)

end Warehouse

end DataQuality
