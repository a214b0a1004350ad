import DataQuality.Dialect.Capability
import DataQuality.Text.Case
import DataQuality.Text.Basic

/-!
# Metrics

Every metric that can be measured or derived, and what is known about it: how its value is
obtained, on which columns, and from which other metrics. `Metric.all` lists them so that each
comes after the metrics it is derived from.
-/

namespace DataQuality

/-- A metric of a table or of one of its columns. -/
inductive Metric where
  | rowCount
  | missingCount
  | validCount
  | min
  | max
  | avg
  | sum
  | variance
  | stddev
  | median
  | minLength
  | maxLength
  | avgLength
  | distinct
  | uniqueCount
  | duplicateCount
  | mins
  | maxs
  | frequentValues
  | histogram
  | missingPercentage
  | valuesCount
  | valuesPercentage
  | validPercentage
  | invalidCount
  | invalidPercentage
  | uniqueness
  deriving DecidableEq, Repr

/-- What a metric is about. -/
inductive Metric.Category where
  | counts
  | numeric
  | lengths
  | distribution
  deriving DecidableEq, Repr

/-- How the value of a metric is obtained: from an aggregate that shares a query with others, from
a query of its own over the values of a column, or from other metrics. -/
inductive Metric.Computation where
  | aggregate
  | distribution
  | derived
  deriving DecidableEq, Repr

/-- The columns that a metric applies to. -/
inductive Metric.Applicability where
  | anyColumn
  | textColumns
  | numericColumns
  deriving DecidableEq, Repr

namespace Metric

/-- All metrics in catalog order. -/
def all : List Metric :=
  [.rowCount, .missingCount, .validCount, .min, .max, .avg, .sum, .variance, .stddev, .median,
    .minLength, .maxLength, .avgLength, .distinct, .uniqueCount, .duplicateCount, .mins, .maxs,
    .frequentValues, .histogram, .missingPercentage, .valuesCount, .valuesPercentage,
    .validPercentage, .invalidCount, .invalidPercentage, .uniqueness]

/-- The name of a metric in documents, keys and expressions. -/
def name : Metric → String
  | .rowCount => "row_count"
  | .missingCount => "missing_count"
  | .validCount => "valid_count"
  | .min => "min"
  | .max => "max"
  | .avg => "avg"
  | .sum => "sum"
  | .variance => "variance"
  | .stddev => "stddev"
  | .median => "median"
  | .minLength => "min_length"
  | .maxLength => "max_length"
  | .avgLength => "avg_length"
  | .distinct => "distinct"
  | .uniqueCount => "unique_count"
  | .duplicateCount => "duplicate_count"
  | .mins => "mins"
  | .maxs => "maxs"
  | .frequentValues => "frequent_values"
  | .histogram => "histogram"
  | .missingPercentage => "missing_percentage"
  | .valuesCount => "values_count"
  | .valuesPercentage => "values_percentage"
  | .validPercentage => "valid_percentage"
  | .invalidCount => "invalid_count"
  | .invalidPercentage => "invalid_percentage"
  | .uniqueness => "uniqueness"

/-- The metric of a name, in any letter case and between any blanks. -/
def ofName? (name : String) : Option Metric :=
  let wanted := Text.lower (Text.trim name)
  all.find? fun m ↦ m.name == wanted

/-- What the metric is about. -/
def category : Metric → Category
  | .rowCount | .missingCount | .validCount | .missingPercentage | .valuesCount
  | .valuesPercentage | .validPercentage | .invalidCount | .invalidPercentage => .counts
  | .min | .max | .avg | .sum | .variance | .stddev | .median => .numeric
  | .minLength | .maxLength | .avgLength => .lengths
  | .distinct | .uniqueCount | .duplicateCount | .mins | .maxs | .frequentValues | .histogram
  | .uniqueness => .distribution

/-- How the value of the metric is obtained. -/
def computation : Metric → Computation
  | .rowCount | .missingCount | .validCount | .min | .max | .avg | .sum | .variance | .stddev
  | .median | .minLength | .maxLength | .avgLength => .aggregate
  | .distinct | .uniqueCount | .duplicateCount | .mins | .maxs | .frequentValues
  | .histogram => .distribution
  | .missingPercentage | .valuesCount | .valuesPercentage | .validPercentage | .invalidCount
  | .invalidPercentage | .uniqueness => .derived

/-- The columns that the metric applies to. -/
def applicability : Metric → Applicability
  | .min | .max | .avg | .sum | .variance | .stddev | .median | .histogram => .numericColumns
  | .minLength | .maxLength | .avgLength => .textColumns
  | _ => .anyColumn

/-- The metrics that the metric is computed from. -/
def dependencies : Metric → List Metric
  | .histogram => [.min, .max]
  | .missingPercentage | .valuesCount => [.missingCount, .rowCount]
  | .valuesPercentage => [.valuesCount, .rowCount]
  | .validPercentage => [.validCount, .rowCount]
  | .invalidCount => [.validCount, .missingCount, .rowCount]
  | .invalidPercentage => [.invalidCount, .rowCount]
  | .uniqueness => [.distinct, .rowCount]
  | _ => []

/-- The part of SQL that measuring the metric needs, if not every warehouse has it. -/
def capability : Metric → Option Capability
  | .variance | .stddev => some .variance
  | .median => some .percentile
  | .histogram => some .histogram
  | _ => none

/-- Whether the metric is measured once for the table, not once for every column. -/
def isTableWide (m : Metric) : Bool := m == .rowCount

/-- Whether the metric needs the values of a column and not one aggregate. -/
def needsValues (m : Metric) : Bool := m.computation == .distribution

/-- The metrics of a list in catalog order, each once. -/
def ordered (ms : List Metric) : List Metric := all.filter ms.contains

/-- Every metric is in the catalog. -/
theorem mem_all (m : Metric) : m ∈ all := by cases m <;> decide

/-- Ordering neither adds nor loses a metric. -/
@[simp] theorem mem_ordered {m : Metric} {ms : List Metric} : m ∈ ordered ms ↔ m ∈ ms := by
  simp [ordered, mem_all]

/-- The catalog lists no metric twice. -/
theorem nodup_all : all.Nodup := by decide

end Metric

end DataQuality
