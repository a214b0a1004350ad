import DataQuality.Plan.Issue
import DataQuality.Run.Group
import DataQuality.Test.Evaluation

/-!
# Scan results

What a scan found out, and the verdict on it: an error beats a failure, and a failure beats a pass.
-/

namespace DataQuality

/-- A query as the report of a scan lists it. -/
structure QueryTiming where
  groupId : Nat
  label : String
  milliseconds : Nat
  rowCount : Nat
  succeeded : Bool
  deriving DecidableEq, Repr

/-- The query of a group, if it was asked. Clocks are no part of a session, so it takes no time. -/
def GroupOutcome.timing? (o : GroupOutcome) : Option QueryTiming :=
  o.asked.map fun q ↦ ⟨o.id, o.label, 0, q.rowCount, q.succeeded⟩

/-- The verdict on a scan. -/
inductive ScanStatus where
  | passed
  | failed
  | error
  deriving DecidableEq, Repr

/-- The name of a verdict in reports. -/
def ScanStatus.name : ScanStatus → String
  | .passed => "passed"
  | .failed => "failed"
  | .error => "error"

/-- Everything that a scan found out. `faults` holds the messages of defects of the scan itself. -/
structure ScanResult where
  table : String
  warehouse : Warehouse
  measurements : List Measurement
  tests : List TestResult
  issues : List Issue
  timings : List QueryTiming
  faults : List String
  cancelled : Bool

/-- The numbers of a scan and the verdict on it. -/
structure ScanSummary where
  measurements : Nat
  testsPassed : Nat
  testsFailed : Nat
  testsErrored : Nat
  issues : Nat
  status : ScanStatus
  deriving DecidableEq, Repr

/-- Whether a test passed. -/
def TestResult.passed (t : TestResult) : Bool := t.outcome = .passed

namespace ScanResult

/-- Whether the result cannot be trusted as a whole. -/
def isDefective (r : ScanResult) : Bool :=
  r.cancelled || !r.faults.isEmpty || !r.issues.isEmpty

/-- The verdict on a scan. -/
def status (r : ScanResult) : ScanStatus :=
  if r.isDefective then .error
  else if r.tests.all TestResult.passed then .passed
  else .failed

/-- The number of tests that ended in a given way. -/
def countTests (r : ScanResult) (outcome : TestOutcome) : Nat :=
  r.tests.countP fun t ↦ t.outcome = outcome

/-- The numbers of a scan and the verdict on it. -/
def summary (r : ScanResult) : ScanSummary where
  measurements := r.measurements.length
  testsPassed := r.countTests .passed
  testsFailed := r.countTests .failed
  testsErrored := r.countTests .error
  issues := r.issues.length
  status := r.status

/-- The measurement of a key. -/
def measurement? (r : ScanResult) (key : MetricKey) : Option Measurement :=
  r.measurements.find? fun m ↦ m.key = key

end ScanResult

/-- The exit code of a scan: 0 if all is well, 1 if tests failed, 2 if there were errors. -/
def ScanSummary.exitCode (s : ScanSummary) : Nat :=
  if s.status = .error ∨ 0 < s.testsErrored then 2 else if 0 < s.testsFailed then 1 else 0

end DataQuality
