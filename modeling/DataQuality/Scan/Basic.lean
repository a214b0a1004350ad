import DataQuality.Config.Validation
import DataQuality.Plan.Build
import DataQuality.Scan.Discovery
import DataQuality.Scan.Execution
import DataQuality.Scan.Result

/-!
# Scans

A scan runs at most once. It finds out the columns of its table or is given them, plans, runs the
queries, derives, evaluates the tests and reports. Until it is planned it may be tried again.
-/

namespace DataQuality

/-- How queries may be run side by side. -/
structure ScanOptions where
  maxConcurrentQueries : Nat
  positive : 0 < maxConcurrentQueries

namespace ScanOptions

/-- At most the given number of queries at once; zero counts as one. -/
def ofMaxConcurrentQueries (n : Nat) : ScanOptions := ⟨Nat.max n 1, Nat.le_max_right n 1⟩

/-- One query after another. -/
def sequential : ScanOptions := ofMaxConcurrentQueries 1

instance : Inhabited ScanOptions := ⟨sequential⟩

end ScanOptions

/-- A scan of a table. `dialect` is the warehouse whose queries are written, and `cap` limits the
aggregates in one query unless it is zero. `asked` holds all queries asked on its behalf. -/
structure Scan where
  warehouse : Warehouse
  dialect : Warehouse
  config : ScanConfiguration
  cap : Nat
  stage : ScanStage
  asked : List String

/-- The metric under which a scan records the columns of its table. -/
def schemaMetric : String := "schema"

namespace Scan

/-- A scan that has not begun, in the own dialect of a warehouse and without a cap. -/
def ofConfiguration (w : Warehouse) (config : ScanConfiguration) : Scan :=
  ⟨w, w, config, 0, .initialized, []⟩

/-- The error of a call on a scan that ran before or was cancelled. -/
def refusal? (s : Session) (scan : Scan) : Option ScanError :=
  let table := scan.config.tableName
  if scan.stage ≠ .initialized then some (.internal (.alreadyRan table scan.stage))
  else if s.isCancelled scan.asked then
    some (.cancelled ("scan of '" ++ table ++ "' was cancelled before it started"))
  else none

/-- Moves on to a stage, which must be the next one. -/
def advance (scan : Scan) (target : ScanStage) : Except ScanError Scan :=
  if scan.stage.next? = some target then .ok { scan with stage := target }
  else .error (.internal (.invalidTransition scan.stage target))

/-- The query for the columns of the table. -/
def columnsQuery (scan : Scan) : String := scan.dialect.columnsQuery scan.config.tableName

/-- The columns in an answer about the schema. -/
def columnsOf (scan : Scan) : Except ScanError Rows → Except ScanError (List TableColumn)
  | .error e => .error (.schemaDiscovery scan.config.tableName e.message)
  | .ok rows =>
    if rows.tableColumns.isEmpty then
      .error (.schemaDiscovery scan.config.tableName "table does not exist or has no columns")
    else .ok rows.tableColumns

/-- The plan for the columns of the table, if the configuration is sound. -/
def plan (scan : Scan) (columns : List TableColumn) : Except ScanError Plan :=
  match scan.config.error? with
  | some e => .error (.configuration e.message)
  | none =>
    match scan.config.plan scan.dialect scan.cap columns with
    | .ok p => .ok p
    | .error e => .error e.toScanError

/-- The report on a run of a plan after everything derived was recorded too. -/
def report (scan : Scan) (p : Plan) (r : Run) (l : Ledger) : ScanResult where
  table := scan.config.tableName
  warehouse := scan.warehouse
  measurements := l.measurements.entries.filter fun m ↦ !m.internal
  tests := p.tests.flatMap fun t ↦ t.evaluate l.measurements
  issues := p.issues
  timings := r.turns.filterMap fun t ↦ t.outcome.timing?
  faults := l.faults.map fun f ↦ (ScanError.internal f).message
  cancelled := r.cancelled

/-- The run of a plan, from the measurement of the schema to the last group. -/
def runPlan (s : Session) (scan : Scan) (p : Plan) : Run :=
  (Run.start scan.asked [⟨.ofTable schemaMetric, .measured (.schema p.columns), false⟩]).runPlan
    s scan.dialect p

/-- The report on a run, unless it ended early. The scan moves on as far as the run came. -/
def conclude (scan : Scan) (p : Plan) (r : Run) : Scan × Except ScanError ScanResult :=
  match r.lost? with
  | some e => (scan, .error e)
  | none =>
    match (scan.advance .evaluated).bind fun scan ↦ scan.advance .reported with
    | .ok done => (done, .ok (scan.report p r (r.ledger.derive p.derived)))
    | .error e => (scan, .error e)

/-- Runs a plan. -/
def execute (s : Session) (scan : Scan) (p : Plan) : Scan × Except ScanError ScanResult :=
  match (scan.advance .planned).bind fun scan ↦ scan.advance .executing with
  | .ok running =>
    let r := running.runPlan s p
    conclude { running with asked := r.asked } p r
  | .error e => (scan, .error e)

/-- Plans and runs a scan of a table with known columns. -/
def runColumns (s : Session) (scan : Scan) (columns : List TableColumn) :
    Scan × Except ScanError ScanResult :=
  match scan.plan columns with
  | .ok p => scan.execute s p
  | .error e => (scan, .error e)

/-- Finds out the columns of the table and scans it. -/
def run (s : Session) (scan : Scan) : Scan × Except ScanError ScanResult :=
  match scan.refusal? s with
  | some e => (scan, .error e)
  | none =>
    let sql := scan.columnsQuery
    let discovered := { scan with asked := scan.asked ++ [sql] }
    match scan.columnsOf (s.answer scan.asked sql) with
    | .ok columns => discovered.runColumns s columns
    | .error e => (discovered, .error e)

/-- Scans a table with columns that are given. -/
def runGiven (s : Session) (scan : Scan) (columns : List TableColumn) :
    Scan × Except ScanError ScanResult :=
  match scan.refusal? s with
  | some e => (scan, .error e)
  | none =>
    if columns.isEmpty then
      (scan, .error (.schemaDiscovery scan.config.tableName "no columns given"))
    else scan.runColumns s columns

end Scan

end DataQuality
