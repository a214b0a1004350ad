import DataQuality.Catalog.Closure
import DataQuality.Plan.Aggregate
import DataQuality.Plan.Distribution

/-!
# The metrics of a column

Which metrics are wanted of a column, what it takes to have them, and how each is obtained. A metric
that cannot be had becomes an issue if it was asked for, and is dropped silently if it would only
have served others.
-/

namespace DataQuality

/-- Whether the metric applies to the values of the column. -/
def ColumnProfile.accepts (p : ColumnProfile) (m : Metric) : Bool :=
  match m.applicability with
  | .anyColumn => true
  | .textColumns => p.isText
  | .numericColumns => p.isNumeric

/-- The issue of a name that is not in the catalog. -/
def CatalogError.issue (subject : String) (e : CatalogError) : Issue :=
  let kind := match e with
    | .unknownMetric _ => IssueKind.unknownMetric
    | .unknownGroup _ => .unknownMetricGroup
    | .cycle _ => .dependencyUnavailable
  ⟨subject, kind, e.message⟩

/-- The request for the number of rows. -/
def rowCountRequest (internal : Bool) : MetricRequest :=
  ⟨.ofTable Metric.rowCount.name, some .rowCount, internal⟩

/-- The requests and issues that a part of a plan comes to. -/
structure Findings where
  requests : List MetricRequest
  issues : List Issue

/-- What is wanted of a column. -/
structure Wanted where
  metrics : List Metric
  findings : Findings

/-- The issue of a metric that does not apply to the column. -/
def incompatible (p : ColumnProfile) (m : Metric) : Issue :=
  ⟨p.key ++ "." ++ m.name, .incompatibleColumnType,
    m.name ++ " cannot be measured on column '" ++ p.name ++ "' of this type"⟩

/-- What is wanted of a column: the metrics of the whole scan that apply to it, and those that its
settings ask for. A metric that the settings name but that does not apply is an issue. -/
def Wanted.ofColumn (p : ColumnProfile) (scanWide : List Metric)
    (settings : Option ColumnSettings) : Wanted :=
  let shared := scanWide.filter fun m ↦ m ≠ .rowCount && p.accepts m
  match settings with
  | none => ⟨shared, [], []⟩
  | some c =>
    let asked := Selection.ofNames c.metrics c.metricGroups
    let named := c.metrics.filterMap Metric.ofName?
    let own := asked.metrics.filter fun m ↦ m ≠ .rowCount && p.accepts m
    let refused := asked.metrics.filter fun m ↦
      m ≠ .rowCount && !p.accepts m && named.contains m
    { metrics := Metric.ordered (shared ++ own)
      findings :=
        { requests := if asked.metrics.contains .rowCount then [rowCountRequest false] else []
          issues := asked.unknown.map (CatalogError.issue p.key) ++ refused.map (incompatible p) } }

/-- Why a metric cannot be had. -/
inductive Obstacle where
  | missingDependency (dependency : Metric)
  | unsupported (e : DialectError)

/-- The issue of a metric that cannot be had. -/
def Obstacle.issue (subject : String) : Obstacle → Issue
  | .missingDependency d =>
    ⟨subject, .dependencyUnavailable, "requires " ++ d.name ++ ", which cannot be measured"⟩
  | .unsupported e => ⟨subject, .unsupportedByDialect, e.message⟩

/-- How a metric of a column is obtained. -/
inductive Producer where
  | aggregate (sql : String)
  | distribution
  | derived

/-- The conditions of a column, if the dialect can express them and has what the metric needs. -/
def conditionsFor (w : Warehouse) (conditions : Except DialectError ColumnConditions)
    (m : Metric) : Except DialectError ColumnConditions :=
  conditions.bind fun c ↦
    match m.capability with
    | some capability => w.require capability c
    | none => .ok c

/-- How a metric of a column is obtained, `available` being those that can be had. -/
def producer (w : Warehouse) (p : ColumnProfile)
    (conditions : Except DialectError ColumnConditions) (available : List Metric) (m : Metric) :
    Except Obstacle Producer :=
  match m.dependencies.find? fun d ↦ !available.contains d with
  | some d => .error (.missingDependency d)
  | none =>
    match m.aggregateForm? with
    | some form =>
      ((conditionsFor w conditions m).bind fun c ↦ (form.sql w p c).map Producer.aggregate).mapError
        .unsupported
    | none =>
      if m.computation = .derived then .ok .derived
      else ((conditionsFor w conditions m).map fun _ ↦ Producer.distribution).mapError .unsupported

/-- What the metrics of a column come to. -/
structure ColumnPlan where
  findings : Findings
  aggregates : List AggregateExpr
  distributions : List WantedDistribution
  derived : List DerivedMetric

namespace ColumnPlan

/-- Nothing at all. -/
def empty : ColumnPlan := ⟨⟨[], []⟩, [], [], []⟩

/-- The plan with a request in front. -/
def request (r : MetricRequest) (c : ColumnPlan) : ColumnPlan :=
  { c with findings := { c.findings with requests := r :: c.findings.requests } }

/-- The plan with a metric in front. -/
def produce (p : ColumnProfile) (r : ResolvedMetric) (how : Producer) (c : ColumnPlan) :
    ColumnPlan :=
  let key := MetricKey.ofColumn p.key r.metric.name
  let requested := c.request ⟨key, some r.metric, r.internal⟩
  match how with
  | .aggregate sql => { requested with aggregates := ⟨key, sql⟩ :: c.aggregates }
  | .distribution => { requested with distributions := ⟨r.metric, r.internal⟩ :: c.distributions }
  | .derived => { requested with derived := ⟨key, r.metric, r.internal⟩ :: c.derived }

/-- The plan with the issue of a metric in front, unless the metric is internal. -/
def drop (p : ColumnProfile) (r : ResolvedMetric) (o : Obstacle) (c : ColumnPlan) : ColumnPlan :=
  if r.internal then c
  else
    let issue := o.issue (p.key ++ "." ++ r.metric.name)
    { c with findings := { c.findings with issues := issue :: c.findings.issues } }

/-- Plans metrics in catalog order; `available` holds those that can be had so far. -/
def ofMetrics (w : Warehouse) (p : ColumnProfile)
    (conditions : Except DialectError ColumnConditions) (available : List Metric) :
    List ResolvedMetric → ColumnPlan
  | [] => empty
  | r :: rest =>
    if r.metric = .rowCount then
      (ofMetrics w p conditions (.rowCount :: available) rest).request (rowCountRequest true)
    else
      match producer w p conditions available r.metric with
      | .ok how => (ofMetrics w p conditions (r.metric :: available) rest).produce p r how
      | .error o => (ofMetrics w p conditions available rest).drop p r o

/-- Plans the metrics that are wanted of a column, with those they need. -/
def ofWanted (w : Warehouse) (p : ColumnProfile)
    (conditions : Except DialectError ColumnConditions) (metrics : List Metric) : ColumnPlan :=
  match resolve metrics with
  | .ok resolved => ofMetrics w p conditions [] resolved
  | .error e => { empty with findings := ⟨[], [CatalogError.issue p.key e]⟩ }

end ColumnPlan

end DataQuality
