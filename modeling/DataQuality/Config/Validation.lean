import DataQuality.Config.Basic
import DataQuality.Pattern.Limits

/-!
# Sound configurations

The structural demands on a configuration. Names of metrics and the texts of tests are not looked
at: a mistake there concerns one item only and is reported when the scan is planned.
-/

namespace DataQuality

/-- The limits of a configuration, which must not be zero. -/
inductive Limit where
  | minsMaxs
  | frequentValues
  | histogramBuckets
  deriving DecidableEq, Repr

/-- The name of a limit in documents. -/
def Limit.name : Limit → String
  | .minsMaxs => "mins_maxs_limit"
  | .frequentValues => "frequent_values_limit"
  | .histogramBuckets => "histogram_buckets"

/-- Where custom queries are declared. -/
inductive SqlMetricPlace where
  | table
  | column (name : String)
  deriving DecidableEq, Repr

/-- The place as messages name it. -/
def SqlMetricPlace.describe : SqlMetricPlace → String
  | .table => "table"
  | .column name => "column '" ++ name ++ "'"

/-- What is wrong with a custom query. -/
inductive SqlMetricFlaw where
  | emptySql
  | unnamedFailedRows
  | unnamedGroups
  deriving DecidableEq, Repr

/-- The flaw as messages name it. -/
def SqlMetricFlaw.describe : SqlMetricFlaw → String
  | .emptySql => "sql cannot be empty"
  | .unnamedFailedRows => "failed_rows metrics require a name"
  | .unnamedGroups => "grouped metrics require a name"

/-- What is wrong with a configuration. -/
inductive ConfigurationError where
  | emptyTableName
  | invalidSamplePercentage (percentage : Float)
  | zeroLimit (limit : Limit)
  | invalidRegex (subject : String)
  | unknownValidityFormat (column format : String)
  | unknownMissingFormat (column format : String)
  | invalidSqlMetric (place : SqlMetricPlace) (index : Nat) (flaw : SqlMetricFlaw)

/-- The message of an error. -/
def ConfigurationError.message : ConfigurationError → String
  | emptyTableName => "table_name cannot be empty"
  | invalidSamplePercentage percentage =>
    "sample_percentage must be in (0, 100], got " ++ Number.plainText percentage
  | zeroLimit limit => limit.name ++ " must be greater than 0"
  | invalidRegex subject => "invalid regex for " ++ subject
  | unknownValidityFormat column format =>
    "unknown validity format '" ++ format ++ "' for column '" ++ column ++ "'"
  | unknownMissingFormat column format =>
    "unknown missing format '" ++ format ++ "' for column '" ++ column ++ "'"
  | invalidSqlMetric place index flaw =>
    "sql metric " ++ Number.natText index ++ " of " ++ place.describe ++ ": " ++ flaw.describe

/-- What is wrong with a custom query, if anything. -/
def SqlMetric.flaw? (m : SqlMetric) : Option SqlMetricFlaw :=
  if Text.isBlank m.sql then some .emptySql
  else if m.kind = .failedRows ∧ m.name.isNone then some .unnamedFailedRows
  else if m.isGrouped ∧ m.name.isNone then some .unnamedGroups
  else none

/-- The first flaw of custom queries, the first of which has the given index. -/
def sqlMetricError? (place : SqlMetricPlace) (index : Nat) :
    List SqlMetric → Option ConfigurationError
  | [] => none
  | m :: rest =>
    match m.flaw? with
    | some flaw => some (.invalidSqlMetric place index flaw)
    | none => sqlMetricError? place (index + 1) rest

/-- What is wrong with a name that should stand in a table of formats. -/
def unknownFormat? (pattern? : String → Option String) (report : String → ConfigurationError)
    (format : Option String) : Option ConfigurationError :=
  format.bind fun f ↦ if (pattern? f).isSome then none else some (report f)

/-- What is wrong with a text that should be a regular expression. -/
def invalidRegex? (subject : String) (regex : Option String) : Option ConfigurationError :=
  regex.bind fun r ↦ if Pattern.isValid r then none else some (.invalidRegex subject)

/-- What is wrong with the settings of a column, if anything. -/
def ColumnSettings.error? (name : String) (c : ColumnSettings) : Option ConfigurationError :=
  (unknownFormat? Format.validityPattern? (.unknownValidityFormat name) c.validFormat)
    <|> (unknownFormat? Format.missingPattern? (.unknownMissingFormat name) c.missingFormat)
    <|> invalidRegex? (name ++ ".missing_regex") c.missingRegex
    <|> invalidRegex? (name ++ ".valid_regex") c.validRegex
    <|> sqlMetricError? (.column name) 0 c.sqlMetrics

namespace ScanConfiguration

/-- What is wrong with the size of the sample, if anything. -/
def sampleError? (c : ScanConfiguration) : Option ConfigurationError :=
  c.samplePercentage.bind fun p ↦
    if 0.0 < p && p ≤ 100.0 then none else some (.invalidSamplePercentage p)

/-- The first limit that is zero. -/
def limitError? (c : ScanConfiguration) : Option ConfigurationError :=
  ([(Limit.minsMaxs, c.minsMaxsLimit), (.frequentValues, c.frequentValuesLimit),
    (.histogramBuckets, c.histogramBuckets)].find? fun l ↦ l.2 == 0).map fun l ↦ .zeroLimit l.1

/-- The first thing that is wrong with a configuration, if anything. -/
def error? (c : ScanConfiguration) : Option ConfigurationError :=
  (if Text.isBlank c.tableName then some .emptyTableName else none)
    <|> c.sampleError?
    <|> c.limitError?
    <|> sqlMetricError? .table 0 c.sqlMetrics
    <|> c.columns.entries.findSome? fun entry ↦ entry.2.error? entry.1

/-- Whether the configuration meets the structural demands. -/
def isSound (c : ScanConfiguration) : Bool := c.error?.isNone

end ScanConfiguration

end DataQuality
