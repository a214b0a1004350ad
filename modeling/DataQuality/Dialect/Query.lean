import DataQuality.Dialect.Expression

/-!
# Queries

The whole queries that a scan sends, except for custom ones. Each names its result columns, so
that they are found again in the answer.
-/

namespace DataQuality

/-- What a query reads: a table, perhaps sampled, and the filter that all its rows pass. -/
structure QuerySource where
  table : String
  filter : Option String
  deriving DecidableEq, Repr, Inhabited

namespace QuerySource

/-- A source whose filter counts only if it is not blank. -/
def withFilter (table : String) (filter : Option String) : QuerySource :=
  ⟨table, filter.filter fun f ↦ !Text.isBlank f⟩

/-- The clause that combines the filter with a further condition; empty if there is neither. -/
def whereClause (source : QuerySource) (predicate : Option String) : String :=
  match source.filter, predicate with
  | none, none => ""
  | some filter, none => "\nWHERE " ++ filter
  | none, some predicate => "\nWHERE " ++ predicate
  | some filter, some predicate => "\nWHERE (" ++ filter ++ ") AND (" ++ predicate ++ ")"

/-- The source with the condition that rows have to meet. -/
def fromClause (source : QuerySource) (predicate : Option String) : String :=
  "FROM " ++ source.table ++ source.whereClause predicate

end QuerySource

/-- The result column that holds values. -/
def valueColumn : String := "dq_value"

/-- The result column that holds how often something occurs. -/
def frequencyColumn : String := "dq_frequency"

/-- The result column that holds the numbers of buckets. -/
def bucketColumn : String := "dq_bucket"

/-- Numbers that can be written in SQL. -/
class SqlLiteral (F : Type) where
  literal : F → String

instance : SqlLiteral Float := ⟨Warehouse.floatLiteral⟩

/-- Numbers between which buckets are laid out: their arithmetic, and the counts among them. -/
class BucketNumber (F : Type) extends Add F, Sub F, Mul F, Div F, LT F where
  ofCount : Nat → F
  decideLT : DecidableLT F

attribute [reducible, instance] BucketNumber.decideLT

instance : BucketNumber Float where
  ofCount n := Number.ofInt n
  decideLT := inferInstance

/-- How values are put into buckets: all into one, or by their place between two bounds. -/
inductive Bucketing (F : Type := Float) where
  | single
  | equalWidth (min max width : F) (count : UInt32)

namespace Bucketing

variable {F : Type} [BucketNumber F]

/-- The buckets between two bounds; without room between them there is one only. -/
def ofRange (min max : F) (count : UInt32) : Bucketing F :=
  let width := max - min
  if BucketNumber.ofCount 0 < width ∧ 1 < count then equalWidth min max width count else single

variable [SqlLiteral F]

/-- The position of a value between the bounds, counted in buckets. -/
def scaled (expr : String) (min width : F) (count : UInt32) : String :=
  "(" ++ expr ++ " - " ++ SqlLiteral.literal min ++ ") * " ++
    SqlLiteral.literal (BucketNumber.ofCount count.toNat : F) ++ " / " ++ SqlLiteral.literal width

/-- The number of the bucket that a value belongs to; the upper bound belongs to the last one. -/
def sql (w : Warehouse) (expr : String) : Bucketing F → String
  | single => "0"
  | equalWidth min max width count =>
    "CASE WHEN " ++ expr ++ " >= " ++ SqlLiteral.literal max ++ " THEN " ++
      Number.natText (count.toNat - 1) ++ " ELSE " ++
      w.floorToInteger (scaled expr min width count) ++ " END"

end Bucketing

namespace Warehouse

/-- The schema and the bare name of a table. -/
def splitTable (table : String) : Option String × String :=
  match Text.cutLast '.' table.toList with
  | some (schema, name) => (some (String.ofList schema), String.ofList name)
  | none => (none, table)

/-- A query for the columns of a table, asked of a catalog view. -/
def catalogQuery (view : String) (conditions : List String) : String :=
  "SELECT column_name, data_type, is_nullable\nFROM " ++ view ++ "\nWHERE " ++
    Text.join "\n  AND " conditions ++ "\nORDER BY ordinal_position"

/-- A query for the names and types of the columns of a table and whether they may be null, in
the order of the columns. -/
def columnsQuery (w : Warehouse) (table : String) : String :=
  let (schema, name) := splitTable table
  match w with
  | .postgreSQL =>
    catalogQuery "information_schema.columns"
      ["lower(table_name) = lower(" ++ w.stringLiteral name ++ ")",
        match schema with
        | some schema => "lower(table_schema) = lower(" ++ w.stringLiteral schema ++ ")"
        | none => "table_schema = current_schema()"]
  | .mySQL =>
    catalogQuery "information_schema.columns"
      ["table_name = " ++ w.stringLiteral name,
        "table_schema = " ++ (schema.map w.stringLiteral).getD "DATABASE()"]
  | .sqlite =>
    "SELECT name, type, CASE WHEN \"notnull\" = 0 THEN 'YES' ELSE 'NO' END\n" ++
      "FROM pragma_table_info(" ++ w.stringLiteral table ++ ")\nORDER BY cid"
  | .snowflake =>
    catalogQuery "information_schema.columns"
      (("table_name = UPPER(" ++ w.stringLiteral name ++ ")") ::
        schema.toList.map fun s ↦ "table_schema = UPPER(" ++ w.stringLiteral s ++ ")")
  | .bigQuery =>
    catalogQuery
      (match schema with
        | some dataset => w.qualifyTable dataset ++ ".INFORMATION_SCHEMA.COLUMNS"
        | none => "INFORMATION_SCHEMA.COLUMNS")
      ["table_name = " ++ w.stringLiteral name]

/-- The clause that cuts a result off. -/
def limitClause (limit : UInt32) : String := "\nLIMIT " ++ Number.natText limit.toNat

/-- A query for the most frequent values and how often they occur. -/
def frequentValuesQuery (w : Warehouse) (source : QuerySource) (expr : String)
    (predicate : Option String) (limit : UInt32) : String :=
  "SELECT " ++ w.castToText expr ++ " AS " ++ valueColumn ++ ", COUNT(*) AS " ++
    frequencyColumn ++ "\n" ++ source.fromClause predicate ++ "\nGROUP BY " ++ expr ++
    "\nORDER BY " ++ frequencyColumn ++ " DESC, " ++ valueColumn ++ " ASC" ++ limitClause limit

/-- A query for the smallest or the largest values. -/
def distinctValuesQuery (w : Warehouse) (source : QuerySource) (expr : String)
    (predicate : Option String) (ascending : Bool) (limit : UInt32) : String :=
  "SELECT " ++ w.castToText expr ++ " AS " ++ valueColumn ++ "\n" ++
    source.fromClause predicate ++ "\nGROUP BY " ++ expr ++ "\nORDER BY " ++ expr ++
    (if ascending then " ASC" else " DESC") ++ limitClause limit

/-- A query for the number of different values, of values that occur once, and of others. -/
def duplicatesQuery (source : QuerySource) (expr : String) (predicate : Option String) : String :=
  "SELECT COUNT(*) AS dq_distinct, " ++ countIf (frequencyColumn ++ " = 1") ++
    " AS dq_unique, " ++ countIf (frequencyColumn ++ " > 1") ++
    " AS dq_duplicate\nFROM (SELECT " ++ expr ++ " AS " ++ valueColumn ++ ", COUNT(*) AS " ++
    frequencyColumn ++ "\n  " ++ source.fromClause predicate ++ "\n  GROUP BY " ++ expr ++
    ") AS dq_frequencies"

/-- A query for the number of values in each bucket. -/
def bucketQuery {F : Type} [BucketNumber F] [SqlLiteral F] (w : Warehouse) (source : QuerySource)
    (expr : String) (predicate : Option String) (buckets : UInt32) (min max : F) :
    Except DialectError String :=
  w.require .histogram <|
    "SELECT " ++ bucketColumn ++ ", COUNT(*) AS " ++ frequencyColumn ++ "\nFROM (SELECT " ++
      (Bucketing.ofRange min max buckets).sql w expr ++ " AS " ++ bucketColumn ++ "\n  " ++
      source.fromClause predicate ++ ") AS dq_buckets\nGROUP BY " ++ bucketColumn ++
      "\nORDER BY " ++ bucketColumn

/-- A query for the number of values in each bucket between two floats. -/
def histogramQuery (w : Warehouse) (source : QuerySource) (expr : String)
    (predicate : Option String) (buckets : UInt32) (min max : Float) :
    Except DialectError String :=
  w.bucketQuery source expr predicate buckets min max

end Warehouse

end DataQuality
