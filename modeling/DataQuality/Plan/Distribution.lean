import DataQuality.Plan.Basic
import DataQuality.Plan.Column

/-!
# Distribution queries

The queries about all values of one column: how many differ, which are the most frequent, the
smallest and the largest, and how they spread over buckets.
-/

namespace DataQuality

/-- A metric that a distribution query answers. -/
structure WantedDistribution where
  metric : Metric
  internal : Bool
  deriving DecidableEq, Repr

/-- What the distribution queries about one column have in common. -/
structure DistributionContext where
  warehouse : Warehouse
  profile : ColumnProfile
  valid : String
  source : QuerySource
  config : ScanConfiguration
  wanted : List WantedDistribution

namespace DistributionContext

/-- Whether a metric is wanted, and if so, whether for others only. -/
def internal? (c : DistributionContext) (m : Metric) : Option Bool :=
  (c.wanted.find? fun d ↦ d.metric = m).map WantedDistribution.internal

/-- The binding of a metric that is wanted. -/
def binding? (c : DistributionContext) (m : Metric) (resultColumn : String) (position : Nat) :
    Option Binding :=
  (c.internal? m).map fun internal ↦
    ⟨.ofColumn c.profile.key m.name, resultColumn, some position, internal⟩

/-- A distribution group. -/
def group (c : DistributionContext) (suffix : String) (query : GroupQuery) (shape : ResultShape)
    (bindings : List Binding) : GroupSpec :=
  ⟨.distribution, c.profile.key ++ "." ++ suffix, query, shape, bindings⟩

/-- The group that counts different values. -/
def duplicates (c : DistributionContext) : List GroupSpec :=
  let bindings := [c.binding? .distinct "dq_distinct" 0, c.binding? .uniqueCount "dq_unique" 1,
    c.binding? .duplicateCount "dq_duplicate" 2].filterMap id
  if bindings.isEmpty then []
  else
    [c.group "duplicates"
      (.sql (Warehouse.duplicatesQuery c.source c.profile.expr (some c.valid))) .singleRow bindings]

/-- The group that lists the most frequent values. -/
def frequentValues (c : DistributionContext) : List GroupSpec :=
  (c.binding? .frequentValues valueColumn 0).toList.map fun b ↦
    c.group Metric.frequentValues.name
      (.sql (c.warehouse.frequentValuesQuery c.source c.profile.expr (some c.valid)
        c.config.frequentValuesLimit))
      (.frequencies c.profile.isNumber) [b]

/-- The group that lists the smallest or the largest values. -/
def extremes (c : DistributionContext) (m : Metric) (ascending : Bool) : List GroupSpec :=
  (c.binding? m valueColumn 0).toList.map fun b ↦
    c.group m.name
      (.sql (c.warehouse.distinctValuesQuery c.source c.profile.expr (some c.valid) ascending
        c.config.minsMaxsLimit))
      (.valueList c.profile.isNumber) [b]

/-- The group that spreads the values over buckets. -/
def histogram (c : DistributionContext) : List GroupSpec :=
  (c.binding? .histogram bucketColumn 0).toList.map fun b ↦
    c.group Metric.histogram.name
      (.histogram
        { source := c.source
          expr := c.profile.numericExpr c.warehouse
          predicate := c.valid
          buckets := c.config.histogramBuckets
          min := .ofColumn c.profile.key Metric.min.name
          max := .ofColumn c.profile.key Metric.max.name })
      .histogram [b]

/-- The groups of all metrics that are wanted. -/
def groups (c : DistributionContext) : List GroupSpec :=
  c.duplicates ++ c.frequentValues ++ c.extremes .mins true ++ c.extremes .maxs false ++
    c.histogram

end DistributionContext

end DataQuality
