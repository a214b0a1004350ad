import DataQuality.Json.Basic
import DataQuality.Scan.Result

/-!
# Reports as JSON

The full result of a scan for programs. What is not there is left out, except the value of a
measurement, which becomes null.
-/

namespace DataQuality

/-- A member that is left out if there is nothing to say. -/
def Json.optional (name : String) (v : Option Json) : List (String × Json) :=
  v.toList.map fun j ↦ (name, j)

/-- The column in reports. -/
def TableColumn.toJson (c : TableColumn) : Json :=
  .object [("name", .text c.name), ("data_type", .text c.dataType), ("nullable", .bool c.nullable)]

/-- The histogram in reports. -/
def Histogram.toJson (h : Histogram) : Json :=
  .object [("boundaries", .list (h.boundaries.map .float)),
    ("frequencies", .list (h.frequencies.map .int))]

namespace Value

mutual

/-- The value in reports. -/
def toJson : Value → Json
  | .null => .null
  | .bool b => .bool b
  | .int i => .int i
  | .float x => .float x
  | .text s => .text s
  | .list items => .list (itemsJson items)
  | .frequencies entries => .list (frequenciesJson entries)
  | .histogram h => h.toJson
  | .schema columns => .list (columns.map TableColumn.toJson)
  | .groups rows => .list (rowsJson rows)

/-- The items of a list. -/
def itemsJson : List Value → List Json
  | [] => []
  | v :: vs => v.toJson :: itemsJson vs

/-- The values of a list with their frequencies. -/
def frequenciesJson : List (ValueFrequency Value) → List Json
  | [] => []
  | ⟨v, n⟩ :: rest => .object [("value", v.toJson), ("frequency", .int n)] :: frequenciesJson rest

/-- The named cells of a row. -/
def cellsJson : List (String × Value) → List (String × Json)
  | [] => []
  | (name, v) :: rest => (name, v.toJson) :: cellsJson rest

/-- The rows of a grouped result. -/
def rowsJson : List (GroupRow Value) → List Json
  | [] => []
  | ⟨group, values⟩ :: rest =>
    .object [("group", .object (cellsJson group)), ("values", .object (cellsJson values))] ::
      rowsJson rest

end

end Value

/-- The key in reports. -/
def MetricKey.toJson (key : MetricKey) : Json :=
  .object (Json.optional "column" (key.column.map .text) ++ [("name", .text key.name)])

/-- The measurement in reports. -/
def Measurement.toJson (m : Measurement) : Json :=
  .object ([("key", m.key.toJson), ("value", ((m.reading.value?).map Value.toJson).getD .null),
      ("status", .text m.reading.status.name)] ++
    Json.optional "error" (m.reading.reason?.map .text))

/-- The result of a test in reports. -/
def TestResult.toJson (t : TestResult) : Json :=
  .object ([("id", .text t.id), ("title", .text t.title), ("expression", .text t.expression)] ++
    Json.optional "column" (t.column.map .text) ++
    [("outcome", .text t.outcome.name), ("values", .object (Value.cellsJson t.values.entries))] ++
    Json.optional "error" (t.error.map .text) ++
    Json.optional "group_values" (t.group.map fun g ↦ .object (Value.cellsJson g)))

/-- The issue in reports. -/
def Issue.toJson (i : Issue) : Json :=
  .object [("subject", .text i.subject), ("kind", .text i.kind.name), ("message", .text i.message)]

/-- The summary in reports. -/
def ScanSummary.toJson (s : ScanSummary) : Json :=
  .object [("measurements", .ofNat s.measurements), ("tests_passed", .ofNat s.testsPassed),
    ("tests_failed", .ofNat s.testsFailed), ("tests_errored", .ofNat s.testsErrored),
    ("configuration_issues", .ofNat s.issues), ("status", .text s.status.name)]

/-- Who and when: the id of a scan and its times as a report shows them. -/
structure ScanStamp where
  id : String
  startedAt : String
  finishedAt : String
  deriving DecidableEq, Repr

/-- The stamp of a scan without an id at the beginning of time. -/
def ScanStamp.zero : ScanStamp :=
  ⟨"00000000-0000-0000-0000-000000000000", "1970-01-01T00:00:00Z", "1970-01-01T00:00:00Z"⟩

/-- The query in reports; all queries count from the start of the scan. -/
def QueryTiming.toJson (stamp : ScanStamp) (t : QueryTiming) : Json :=
  .object [("group_id", .ofNat t.groupId), ("label", .text t.label),
    ("started_at", .text stamp.startedAt), ("duration_ms", .ofNat t.milliseconds),
    ("row_count", .ofNat t.rowCount), ("succeeded", .bool t.succeeded)]

/-- The report on a scan. -/
def ScanResult.toJson (stamp : ScanStamp) (r : ScanResult) : Json :=
  .object [("status", .text r.status.name), ("summary", r.summary.toJson),
    ("scan_id", .text stamp.id), ("table_name", .text r.table),
    ("warehouse", .text r.warehouse.name), ("started_at", .text stamp.startedAt),
    ("finished_at", .text stamp.finishedAt),
    ("measurements", .list (r.measurements.map Measurement.toJson)),
    ("test_results", .list (r.tests.map TestResult.toJson)),
    ("configuration_issues", .list (r.issues.map Issue.toJson)),
    ("timings", .list (r.timings.map (QueryTiming.toJson stamp))),
    ("faults", .ofTexts r.faults), ("cancelled", .bool r.cancelled)]

end DataQuality
