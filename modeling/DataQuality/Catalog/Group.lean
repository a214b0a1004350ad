import DataQuality.Catalog.Metric

/-!
# Metric groups

Named sets of metrics. A metric belongs to the narrowest group that holds it, and some groups
bring in their other members as soon as one of them is asked for.
-/

namespace DataQuality

/-- A named set of metrics. -/
inductive MetricGroup where
  | missing
  | validity
  | duplicates
  | length
  | statistics
  | profiling
  | all
  deriving DecidableEq, Repr

namespace MetricGroup

/-- The groups that a single metric may belong to. -/
def narrow : List MetricGroup :=
  [.missing, .validity, .duplicates, .length, .statistics, .profiling]

/-- The name of a group in documents. -/
def name : MetricGroup → String
  | .missing => "missing"
  | .validity => "validity"
  | .duplicates => "duplicates"
  | .length => "length"
  | .statistics => "statistics"
  | .profiling => "profiling"
  | .all => "all"

/-- The group of a name, in any letter case and between any blanks. -/
def ofName? (name : String) : Option MetricGroup :=
  let wanted := Text.lower (Text.trim name)
  (narrow ++ [MetricGroup.all]).find? fun g ↦ g.name == wanted

/-- The metrics that naming the group asks for. -/
def members : MetricGroup → List Metric
  | .missing => [.missingCount, .missingPercentage, .valuesCount, .valuesPercentage]
  | .validity => [.validCount, .validPercentage, .invalidCount, .invalidPercentage]
  | .duplicates => [.distinct, .uniqueCount, .duplicateCount, .uniqueness]
  | .length => [.minLength, .maxLength, .avgLength]
  | .statistics => [.min, .max, .avg, .sum, .variance, .stddev, .median]
  | .profiling => [.mins, .maxs, .frequentValues, .histogram]
  | .all => Metric.all

/-- The narrowest group of a metric. -/
def of? (m : Metric) : Option MetricGroup := narrow.find? fun g ↦ g.members.contains m

end MetricGroup

/-- The metrics that come along when this one is asked for: those that the same queries answer. -/
def Metric.implied (m : Metric) : List Metric :=
  match MetricGroup.of? m with
  | some .validity => MetricGroup.members .validity ++ MetricGroup.members .missing
  | some .missing => MetricGroup.members .missing
  | some .duplicates => MetricGroup.members .duplicates
  | _ => []

end DataQuality
