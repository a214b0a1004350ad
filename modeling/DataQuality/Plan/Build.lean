import DataQuality.Plan.Custom
import DataQuality.Plan.Selection
import DataQuality.Scan.Error

/-!
# Planning

The plan of a scan of a table with the columns that were found. Planning asks no warehouse anything.
It fails only if the configuration names a column that the table does not have, or a sample that the
dialect cannot draw.
-/

namespace DataQuality

/-- Why a scan cannot be planned. -/
inductive PlanError where
  | unknownColumn (column table : String)
  | cannotSample (table : String) (cause : DialectError)
  deriving DecidableEq, Repr

/-- The message of an error. -/
def PlanError.message : PlanError → String
  | unknownColumn column table =>
    "column '" ++ column ++ "' does not exist in table '" ++ table ++ "'"
  | cannotSample table cause => "cannot sample table '" ++ table ++ "': " ++ cause.message

/-- The error as others see it. -/
def PlanError.toScanError (e : PlanError) : ScanError := .configuration e.message

/-- Adds a request: a key that was requested before stays in its place, and is internal only if it
was never requested otherwise. -/
def addRequest (requests : List MetricRequest) (r : MetricRequest) : List MetricRequest :=
  if requests.any fun q ↦ q.key = r.key then
    requests.map fun q ↦
      if q.key = r.key then { q with internal := q.internal && r.internal } else q
  else requests ++ [r]

/-- The requests with each key once. -/
def mergeRequests (requests : List MetricRequest) : List MetricRequest :=
  requests.foldl addRequest []

/-- Adds an issue unless it is there already. -/
def addIssue (issues : List Issue) (i : Issue) : List Issue :=
  if issues.contains i then issues else issues ++ [i]

/-- The issues without repetitions. -/
def mergeIssues (issues : List Issue) : List Issue := issues.foldl addIssue []

/-- A column of the table as it is planned. -/
structure PlannedColumn where
  profile : ColumnProfile
  findings : Findings
  aggregates : List AggregateExpr
  groups : List GroupSpec
  derived : List DerivedMetric
  tests : List DeclaredTests
  customs : List DeclaredMetric

/-- The distribution groups of a column; without conditions there are none. -/
def distributionGroups (w : Warehouse) (config : ScanConfiguration) (source : QuerySource)
    (p : ColumnProfile) (conditions : Except DialectError ColumnConditions)
    (wanted : List WantedDistribution) : List GroupSpec :=
  match conditions with
  | .ok c => DistributionContext.groups ⟨w, p, c.valid.sql, source, config, wanted⟩
  | .error _ => []

/-- The tests that a column declares. -/
def columnTests (config : ScanConfiguration) (p : ColumnProfile)
    (settings : Option ColumnSettings) : List DeclaredTests :=
  match settings with
  | some c =>
    if c.tests.isEmpty then [] else [⟨.ofColumn config.tableName p.key, c.tests⟩]
  | none => []

/-- Plans a column; `scanWide` holds the metrics asked of all columns. -/
def planColumn (w : Warehouse) (config : ScanConfiguration) (source : QuerySource)
    (scanWide : List Metric) (column : TableColumn) : PlannedColumn :=
  let settings := config.column? column.name
  let p := ColumnProfile.ofColumn w column settings
  let wanted := Wanted.ofColumn p scanWide settings
  let conditions := ColumnConditions.build w p settings
  let plan := ColumnPlan.ofWanted w p conditions wanted.metrics
  { profile := p
    findings :=
      ⟨wanted.findings.requests ++ plan.findings.requests,
        wanted.findings.issues ++ plan.findings.issues⟩
    aggregates := plan.aggregates
    groups := distributionGroups w config source p conditions plan.distributions
    derived := plan.derived
    tests := columnTests config p settings
    customs := declareMetrics (some p.key) 0 ((settings.map ColumnSettings.sqlMetrics).getD []) }

/-- What the queries of a scan read. -/
def ScanConfiguration.source (w : Warehouse) (config : ScanConfiguration) :
    Except PlanError QuerySource :=
  let table := w.qualifyTable config.tableName
  match config.samplePercentage with
  | none => .ok (.withFilter table config.filter)
  | some percentage =>
    match w.sampleClause percentage config.sampleMethod with
    | .ok clause => .ok (.withFilter (table ++ " " ++ clause) config.filter)
    | .error e => .error (.cannotSample config.tableName e)

/-- The first column that is configured but not among those found; ASCII letters match in either
case. -/
def ScanConfiguration.unknownColumn? (config : ScanConfiguration) (columns : List TableColumn) :
    Option String :=
  config.columns.keys.find? fun name ↦
    !columns.any fun c ↦ Text.eqFoldingAscii c.name name

/-- Whether a key is requested for other metrics only. -/
def isInternal (requests : List MetricRequest) (key : MetricKey) : Bool :=
  (requests.find? fun r ↦ r.key = key).any MetricRequest.internal

/-- The aggregates of all columns, the number of rows in front if it is requested. -/
def allAggregates (requests : List MetricRequest) (columns : List PlannedColumn) :
    List AggregateExpr :=
  let rowCount := MetricKey.ofTable Metric.rowCount.name
  let others := columns.flatMap PlannedColumn.aggregates
  if requests.any fun r ↦ r.key = rowCount then ⟨rowCount, countRows⟩ :: others else others

/-- Puts planned parts together. `cap` limits the aggregates in a query, unless it is zero. -/
def assemblePlan (cap : Nat) (config : ScanConfiguration) (columns : List TableColumn)
    (source : QuerySource) (scanWide : Findings) (planned : List PlannedColumn) : Plan :=
  let declared := declareMetrics none 0 config.sqlMetrics ++ planned.flatMap PlannedColumn.customs
  let measured := scanWide.requests ++ planned.flatMap fun c ↦ c.findings.requests
  let customs := planCustom config.tableName (measured.map MetricRequest.key) declared
  let requests := mergeRequests
    (measured ++ (customs.flatMap CustomPlan.keys).map fun key ↦ ⟨key, none, false⟩)
  let groups := aggregateGroups cap source (isInternal requests) (allAggregates requests planned)
    ++ planned.flatMap PlannedColumn.groups ++ customs.flatMap fun c ↦ c.group.toList
  let tests := ⟨.ofTable config.tableName, config.tests⟩ :: planned.flatMap PlannedColumn.tests
    ++ customs.flatMap fun c ↦ c.tests.toList
  let compiled := tests.flatMap fun d ↦ d.compile (requests.map MetricRequest.key)
  { table := config.tableName
    columns
    requests
    groups := numberGroups 0 groups
    derived := planned.flatMap PlannedColumn.derived
    tests := successes compiled
    issues := mergeIssues (scanWide.issues ++ planned.flatMap (fun c ↦ c.findings.issues)
      ++ customs.flatMap CustomPlan.issues) ++ failures compiled }

/-- The requests and issues of the metrics asked of the whole scan. -/
def scanWideFindings (selection : Selection) : Findings where
  requests := if selection.metrics.contains .rowCount then [rowCountRequest false] else []
  issues := selection.unknown.map (CatalogError.issue "metrics")

/-- The plan of a scan. -/
def ScanConfiguration.plan (w : Warehouse) (cap : Nat) (config : ScanConfiguration)
    (columns : List TableColumn) : Except PlanError Plan :=
  match config.unknownColumn? columns with
  | some name => .error (.unknownColumn name config.tableName)
  | none =>
    (config.source w).map fun source ↦
      let selection := Selection.ofNames config.metrics config.metricGroups
      assemblePlan cap config columns source (scanWideFindings selection)
        (columns.map (planColumn w config source selection.metrics))

end DataQuality
