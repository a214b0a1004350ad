import DataQuality.Dialect.Quoting

/-!
# SQL expressions

The expressions that queries are built of: predicates, casts and aggregates.
-/

namespace DataQuality

/-- An aggregate of the numbers of a column. -/
inductive AggregateFunction where
  | min
  | max
  | sum
  | avg
  | variance
  | stddev
  deriving DecidableEq, Repr

/-- The part of SQL that an aggregate needs. -/
def AggregateFunction.capability? : AggregateFunction → Option Capability
  | .variance | .stddev => some .variance
  | _ => none

/-- One character that is replaced wherever it occurs in a text. -/
structure Replacement where
  old : Char
  new : List Char
  deriving DecidableEq, Repr

/-- What the replacement makes of a text. -/
def Replacement.apply (r : Replacement) (s : String) : String := Text.substitute r.old r.new s

/-- The replacements that turn a text in a named number format into a plain numeral. -/
def numberCleaning (format : String) : List Replacement :=
  if format = "number_decimal_comma" then [⟨'.', []⟩, ⟨',', ['.']⟩]
  else if format = "number_percentage" then [⟨'%', []⟩, ⟨',', ['.']⟩]
  else if Text.startsWith format "number_money" then
    [⟨'$', []⟩, ⟨'€', []⟩, ⟨'£', []⟩, ⟨',', []⟩, ⟨' ', []⟩]
  else []

namespace Warehouse

/-- A condition that holds where a regular expression matches a part of the text. -/
def regexPredicate (w : Warehouse) (expr pattern : String) : Except DialectError String :=
  let literal := w.stringLiteral pattern
  w.require .regexMatch <|
    match w with
    | .postgreSQL | .sqlite => expr ++ " ~ " ++ literal
    | .mySQL => "REGEXP_LIKE(" ++ expr ++ ", " ++ literal ++ ")"
    | .snowflake => "REGEXP_INSTR(" ++ expr ++ ", " ++ literal ++ ") > 0"
    | .bigQuery => "REGEXP_CONTAINS(" ++ expr ++ ", " ++ literal ++ ")"

/-- The length of a text in characters. -/
def lengthExpr (w : Warehouse) (expr : String) : String :=
  match w with
  | .mySQL => "CHAR_LENGTH(" ++ expr ++ ")"
  | _ => "LENGTH(" ++ expr ++ ")"

/-- A cast. -/
def cast (expr type : String) : String := "CAST(" ++ expr ++ " AS " ++ type ++ ")"

/-- The value as a text. -/
def castToText (w : Warehouse) (expr : String) : String :=
  cast expr <| match w with
    | .postgreSQL | .sqlite => "TEXT"
    | .mySQL => "CHAR"
    | .snowflake => "VARCHAR"
    | .bigQuery => "STRING"

/-- The type of floats. -/
def numericType : Warehouse → String
  | .postgreSQL => "DOUBLE PRECISION"
  | .mySQL | .snowflake => "DOUBLE"
  | .sqlite => "REAL"
  | .bigQuery => "FLOAT64"

/-- A replacement in SQL. -/
def replace (w : Warehouse) (expr : String) (r : Replacement) : String :=
  "REPLACE(" ++ expr ++ ", " ++ w.stringLiteral (String.singleton r.old) ++ ", " ++
    w.stringLiteral (String.ofList r.new) ++ ")"

/-- The number in a text that is written in a named format. -/
def castTextToNumber (w : Warehouse) (expr format : String) : String :=
  cast ((numberCleaning format).foldl w.replace expr) w.numericType

/-- The name of an aggregate function. -/
def aggregateName (w : Warehouse) (f : AggregateFunction) : String :=
  match f, w with
  | .min, _ => "MIN"
  | .max, _ => "MAX"
  | .sum, _ => "SUM"
  | .avg, _ => "AVG"
  | .variance, .mySQL => "VAR_SAMP"
  | .variance, _ => "VARIANCE"
  | .stddev, .mySQL => "STDDEV_SAMP"
  | .stddev, _ => "STDDEV"

/-- An aggregate whose result is read as a float. -/
def castAggregate (w : Warehouse) (expr : String) : String :=
  match w with
  | .postgreSQL | .mySQL | .bigQuery => cast expr w.numericType
  | .sqlite | .snowflake => expr

/-- An aggregate of an expression. -/
def aggregate (w : Warehouse) (f : AggregateFunction) (expr : String) :
    Except DialectError String :=
  let text := w.castAggregate (w.aggregateName f ++ "(" ++ expr ++ ")")
  match f.capability? with
  | some capability => w.require capability text
  | none => .ok text

/-- The number nearest to `p` between zero and one. -/
def clampUnit (p : Float) : Float := if p < 0.0 then 0.0 else if 1.0 < p then 1.0 else p

/-- The position of a quantile among a hundred. -/
def quantileOffset (p : Float) : UInt32 := (clampUnit p * 100.0).round.toUInt32

/-- The value below which the share `p` of the values lies. -/
def percentile (w : Warehouse) (expr : String) (p : Float) : Except DialectError String :=
  let continuous :=
    "PERCENTILE_CONT(" ++ Number.plainText p ++ ") WITHIN GROUP (ORDER BY " ++ expr ++ ")"
  w.require .percentile <|
    match w with
    | .bigQuery =>
      "APPROX_QUANTILES(" ++ expr ++ ", 100 IGNORE NULLS)[OFFSET(" ++
        Number.natText (quantileOffset p).toNat ++ ")]"
    | .postgreSQL => w.castAggregate continuous
    | .mySQL | .sqlite | .snowflake => continuous

/-- The number of rows on which a condition holds. -/
def countIf (condition : String) : String := "COUNT(CASE WHEN " ++ condition ++ " THEN 1 END)"

/-- The expression where a condition holds, null elsewhere. -/
def valueIf (condition expr : String) : String :=
  "CASE WHEN " ++ condition ++ " THEN " ++ expr ++ " END"

/-- The largest integer that is not above a number; where casting cuts decimals off this takes
numbers that are not negative. -/
def floorToInteger (w : Warehouse) (expr : String) : String :=
  match w with
  | .sqlite => cast expr "INTEGER"
  | .mySQL => cast ("FLOOR(" ++ expr ++ ")") "SIGNED"
  | .bigQuery => cast ("FLOOR(" ++ expr ++ ")") "INT64"
  | .postgreSQL | .snowflake => cast ("FLOOR(" ++ expr ++ ")") "INTEGER"

/-- The clause that draws a sample of a table. -/
def sampleClause (w : Warehouse) (percentage : Float) (method : SampleMethod) :
    Except DialectError String :=
  let share := Number.plainText percentage
  match w, method with
  | .bigQuery, .bernoulli => .error (.unsupportedSampleMethod method w)
  | .bigQuery, .system => .ok ("TABLESAMPLE SYSTEM (" ++ share ++ " PERCENT)")
  | w, method => w.require .tableSample ("TABLESAMPLE " ++ method.name ++ " (" ++ share ++ ")")

end Warehouse

end DataQuality
