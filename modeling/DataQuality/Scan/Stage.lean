/-!
# Stages of a scan

A scan goes through its stages one by one and never back.
-/

namespace DataQuality

/-- How far a scan has come. -/
inductive ScanStage where
  | initialized
  | planned
  | executing
  | evaluated
  | reported
  deriving DecidableEq, Repr

namespace ScanStage

/-- The stages in order. -/
def all : List ScanStage := [.initialized, .planned, .executing, .evaluated, .reported]

/-- The name of a stage in messages. -/
def name : ScanStage → String
  | .initialized => "initialized"
  | .planned => "planned"
  | .executing => "executing"
  | .evaluated => "evaluated"
  | .reported => "reported"

/-- The stage after this one. -/
def next? : ScanStage → Option ScanStage
  | .initialized => some .planned
  | .planned => some .executing
  | .executing => some .evaluated
  | .evaluated => some .reported
  | .reported => none

/-- Whether the scan has reported. -/
def isTerminal (s : ScanStage) : Bool := s == .reported

/-- A stage is terminal exactly when none follows. -/
theorem next?_eq_none_iff {s : ScanStage} : s.next? = none ↔ s.isTerminal := by
  cases s <;> decide

end ScanStage

end DataQuality
