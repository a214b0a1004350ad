import DataQuality.Catalog.Metric
import DataQuality.Dialect.Query
import DataQuality.Measure.Value
import DataQuality.Test.Compiled

/-!
# Plans

Everything that a scan will run and evaluate: the queries in the order of their phases, the metrics
derived from their results, and the compiled tests.
-/

namespace DataQuality

/-- A metric that the scan will have; a custom query measures what is not in the catalog. An
internal request is there for other metrics only. -/
structure MetricRequest where
  key : MetricKey
  metric : Option Metric
  internal : Bool
  deriving DecidableEq, Repr

/-- The phases of a scan in the order they run. -/
inductive Phase where
  | aggregate
  | distribution
  | custom
  deriving DecidableEq, Repr

namespace Phase

/-- The phases in order. -/
def all : List Phase := [.aggregate, .distribution, .custom]

/-- The name of a phase. -/
def name : Phase → String
  | .aggregate => "aggregate"
  | .distribution => "distribution"
  | .custom => "custom"

end Phase

/-- Which cell of a result becomes a measurement: that of the column called `resultColumn`, or else
the one in the given position. -/
structure Binding where
  key : MetricKey
  resultColumn : String
  position : Option Nat
  internal : Bool
  deriving DecidableEq, Repr

/-- How the rows of a result are read. `numeric` values are read back from text. -/
inductive ResultShape where
  | singleRow
  | valueList (numeric : Bool)
  | frequencies (numeric : Bool)
  | histogram
  | rowCount
  | groups (fields : List String)
  deriving DecidableEq, Repr

/-- A histogram query that waits for the bounds of its column to be measured. -/
structure HistogramQuery where
  source : QuerySource
  expr : String
  predicate : String
  buckets : UInt32
  min : MetricKey
  max : MetricKey
  deriving DecidableEq, Repr

/-- The histogram query between two bounds. -/
def HistogramQuery.render (w : Warehouse) (q : HistogramQuery) (min max : Float) :
    Except DialectError String :=
  w.histogramQuery q.source q.expr (some q.predicate) q.buckets min max

/-- What a group asks: a query that is known, or a histogram. -/
inductive GroupQuery where
  | sql (text : String)
  | histogram (query : HistogramQuery)
  deriving DecidableEq, Repr

/-- The query, if it is known before the scan. -/
def GroupQuery.sql? : GroupQuery → Option String
  | .sql text => some text
  | .histogram _ => none

/-- One query and the measurements that come of it. -/
structure GroupSpec where
  phase : Phase
  label : String
  query : GroupQuery
  shape : ResultShape
  bindings : List Binding
  deriving DecidableEq, Repr

/-- A query with its place in the plan. -/
structure QueryGroup extends GroupSpec where
  id : Nat
  deriving DecidableEq, Repr

/-- The keys that the group measures. -/
def GroupSpec.keys (g : GroupSpec) : List MetricKey := g.bindings.map Binding.key

/-- Numbers groups from the given place on. -/
def numberGroups (id : Nat) : List GroupSpec → List QueryGroup
  | [] => []
  | g :: rest => ⟨g, id⟩ :: numberGroups (id + 1) rest

/-- A metric that is computed from others. -/
structure DerivedMetric where
  key : MetricKey
  metric : Metric
  internal : Bool
  deriving DecidableEq, Repr

namespace DerivedMetric

/-- The key of a metric that this one is computed from: of the same column, unless it is a metric
of the whole table. -/
def dependencyKey (d : DerivedMetric) (dependency : Metric) : MetricKey :=
  match d.key.column with
  | some column =>
    if dependency.isTableWide then .ofTable dependency.name else .ofColumn column dependency.name
  | none => .ofTable dependency.name

/-- The keys that the metric is computed from. -/
def reads (d : DerivedMetric) : List MetricKey := d.metric.dependencies.map d.dependencyKey

end DerivedMetric

/-- Everything that a scan will run and evaluate. -/
structure Plan where
  table : String
  columns : List TableColumn
  requests : List MetricRequest
  groups : List QueryGroup
  derived : List DerivedMetric
  tests : List CompiledTest
  issues : List Issue

namespace Plan

/-- The request of a key. -/
def request? (p : Plan) (key : MetricKey) : Option MetricRequest :=
  p.requests.find? fun r ↦ r.key = key

/-- The groups of a phase in order. -/
def groupsIn (p : Plan) (phase : Phase) : List QueryGroup := p.groups.filter fun g ↦ g.phase = phase

theorem mem_groupsIn_iff {p : Plan} {phase : Phase} {g : QueryGroup} :
    g ∈ p.groupsIn phase ↔ g ∈ p.groups ∧ g.phase = phase := by
  simp [groupsIn]

/-- The column of a name, up to the case of ASCII letters. -/
def column? (p : Plan) (name : String) : Option TableColumn :=
  p.columns.find? fun c ↦ Text.eqFoldingAscii c.name name

end Plan

end DataQuality
