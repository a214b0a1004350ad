import DataQuality.Scan.Result

/-!
# Reports as text

The summary of a scan for people: the verdict, the numbers, every issue and fault, and the tests
that did not pass.
-/

namespace DataQuality

/-- The verdict as a summary shows it. -/
def ScanStatus.shout : ScanStatus → String
  | .passed => "PASSED"
  | .failed => "FAILED"
  | .error => "ERROR"

namespace TestResult

/-- The mark in front of a test that did not pass; all marks are equally wide. -/
def mark (t : TestResult) : String :=
  match t.outcome with
  | .failed => "FAIL "
  | .passed | .error => "ERROR"

/-- The values of the names in a test, in brackets; nothing if there are none. -/
def valuesText (t : TestResult) : String :=
  match t.values.entries with
  | [] => ""
  | entries => " [" ++ Text.commaSeparated (entries.map fun e ↦ e.1 ++ "=" ++ e.2.display) ++ "]"

/-- The line about a test that did not pass. -/
def line (t : TestResult) : String :=
  let reason := match t.error with
    | some e => ": " ++ e
    | none => ""
  "  " ++ t.mark ++ " " ++ t.title ++ t.valuesText ++ reason

end TestResult

namespace ScanResult

/-- The lines about the numbers of a scan. -/
def numberLines (r : ScanResult) : List String :=
  let s := r.summary
  let unavailable := r.measurements.countP fun m ↦ !m.reading.isOk
  ["Scan of " ++ r.table ++ " (" ++ r.warehouse.name ++ "): " ++ s.status.shout,
    "Tests: " ++ Number.natText s.testsPassed ++ " passed, " ++ Number.natText s.testsFailed ++
      " failed, " ++ Number.natText s.testsErrored ++ " errored",
    "Measurements: " ++ Number.natText s.measurements ++ " (" ++ Number.natText unavailable ++
      " not available)"]

/-- The lines about issues. -/
def issueLines (r : ScanResult) : List String :=
  if r.issues.isEmpty then []
  else "Configuration issues:" :: r.issues.map fun i ↦ "  - " ++ i.text

/-- The lines of a summary. -/
def summaryLines (r : ScanResult) : List String :=
  r.numberLines ++
    (if r.cancelled then ["Scan was cancelled before all queries ran"] else []) ++
    r.issueLines ++ r.faults.map (fun f ↦ "Fault: " ++ f) ++
    (r.tests.filter fun t ↦ !t.passed).map TestResult.line

/-- The summary of a scan; every line ends with a line break. -/
def summaryText (r : ScanResult) : String :=
  String.join (r.summaryLines.map fun line ↦ line ++ "\n")

end ScanResult

end DataQuality
