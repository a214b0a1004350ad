import DataQuality.Config.Format
import DataQuality.Dict
import DataQuality.Number.Text
import DataQuality.Text.Case

/-!
# Scan configurations

What is to be measured on a table, and the tests that the measurements have to pass. Columns are
listed under the lowercase form of their names.
-/

namespace DataQuality

/-- A literal in a list of missing or valid values. -/
inductive Literal where
  | int (i : Int64)
  | float (x : Float)
  | text (s : String)
  deriving Inhabited

/-- A literal as it is shown. -/
def Literal.display : Literal → String
  | int i => Number.intText i.toInt
  | float x => Number.plainText x
  | text s => s

/-- How a sample of a table is drawn. -/
inductive SampleMethod where
  | system
  | bernoulli
  deriving DecidableEq, Repr, Inhabited

/-- The name of a method in documents and in SQL. -/
def SampleMethod.name : SampleMethod → String
  | .system => "SYSTEM"
  | .bernoulli => "BERNOULLI"

/-- What the result of a custom query means: numbers to be measured, or rows that should not be
there. -/
inductive SqlMetric.Kind where
  | numeric
  | failedRows
  deriving DecidableEq, Repr, Inhabited

/-- The name of a kind in documents. -/
def SqlMetric.Kind.name : SqlMetric.Kind → String
  | .numeric => "numeric"
  | .failedRows => "failed_rows"

/-- A custom query. `metricNames` rename the columns of its result by position; `groupFields` name
those that tell the rows of a grouped result apart. -/
structure SqlMetric where
  kind : SqlMetric.Kind
  name : Option String
  sql : String
  metricNames : Option (List String)
  groupFields : Option (List String)
  tests : List String
  deriving DecidableEq, Repr, Inhabited

namespace SqlMetric

/-- A query that measures numbers. -/
def numeric (sql : String) : SqlMetric := ⟨.numeric, none, sql, none, none, []⟩

/-- A query that finds rows which should not be there. -/
def failedRows (name sql : String) : SqlMetric := ⟨.failedRows, some name, sql, none, none, []⟩

/-- Whether the tests are judged row by row. -/
def isGrouped (m : SqlMetric) : Bool := m.groupFields.any fun fields ↦ !fields.isEmpty

end SqlMetric

/-- The settings of a column. -/
structure ColumnSettings where
  metrics : List String
  metricGroups : List String
  missingValues : Option (List Literal)
  missingFormat : Option String
  missingRegex : Option String
  validFormat : Option String
  validRegex : Option String
  validValues : Option (List Literal)
  validMin : Option Float
  validMax : Option Float
  validMinLength : Option UInt32
  validMaxLength : Option UInt32
  tests : List String
  sqlMetrics : List SqlMetric
  deriving Inhabited

/-- A column of which nothing is asked. -/
def ColumnSettings.empty : ColumnSettings :=
  ⟨[], [], none, none, none, none, none, none, none, none, none, none, [], []⟩

/-- What is to be measured on one table. -/
structure ScanConfiguration where
  tableName : String
  metrics : List String
  metricGroups : List String
  tests : List String
  columns : Dict ColumnSettings
  sqlMetrics : List SqlMetric
  minsMaxsLimit : UInt32
  frequentValuesLimit : UInt32
  histogramBuckets : UInt32
  filter : Option String
  samplePercentage : Option Float
  sampleMethod : SampleMethod
  deriving Inhabited

namespace ScanConfiguration

/-- The number of values that lists of values keep unless told otherwise. -/
def defaultLimit : UInt32 := 5

/-- The number of buckets of histograms unless told otherwise. -/
def defaultBuckets : UInt32 := 20

/-- A scan of a table of which nothing is asked. -/
def ofTable (tableName : String) : ScanConfiguration :=
  ⟨tableName, [], [], [], Dict.empty, [], defaultLimit, defaultLimit, defaultBuckets, none, none,
    .system⟩

/-- The settings of a column, whatever the letter case of its name. -/
def column? (c : ScanConfiguration) (name : String) : Option ColumnSettings :=
  c.columns.get? (Text.lower name)

/-- Sets what is asked of a column, in the place of earlier settings. -/
def withColumn (c : ScanConfiguration) (name : String) (settings : ColumnSettings) :
    ScanConfiguration :=
  { c with columns := c.columns.insert (Text.lower name) settings }

/-- Scans a sample of the table only. -/
def withSample (c : ScanConfiguration) (percentage : Float) (method : SampleMethod) :
    ScanConfiguration :=
  { c with samplePercentage := some percentage, sampleMethod := method }

/-- Settings are found under every spelling with the lowercase form they were set under. -/
theorem column?_withColumn (c : ScanConfiguration) (name other : String)
    (settings : ColumnSettings) :
    (c.withColumn name settings).column? other =
      if Text.lower other = Text.lower name then some settings else c.column? other := by
  simp [column?, withColumn]

end ScanConfiguration

end DataQuality
