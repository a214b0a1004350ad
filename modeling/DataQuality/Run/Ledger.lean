import DataQuality.Measure.Measurement
import DataQuality.Scan.Error

/-!
# Ledgers

A scan records its measurements in a ledger. A key that something else wrote before is a fault of
the scan: the first measurement stays and the fault is kept.
-/

namespace DataQuality

/-- Measurements with the faults met while recording them. -/
structure Ledger where
  measurements : MeasurementSet
  faults : List InternalFault

namespace Ledger

/-- Nothing recorded. -/
def empty : Ledger := ⟨.empty, []⟩

/-- Records a measurement; one of a key that was recorded before is a fault and changes nothing
else. -/
def record (l : Ledger) (m : Measurement) : Ledger :=
  match l.measurements.insert? m with
  | some s => { l with measurements := s }
  | none => { l with faults := l.faults ++ [.writtenTwice m.key] }

/-- Records measurements in order. -/
def recordAll (l : Ledger) (ms : List Measurement) : Ledger := ms.foldl record l

@[simp] theorem recordAll_nil (l : Ledger) : l.recordAll [] = l := rfl

@[simp] theorem recordAll_append (l : Ledger) (ms ns : List Measurement) :
    l.recordAll (ms ++ ns) = (l.recordAll ms).recordAll ns := by
  simp [recordAll]

end Ledger

end DataQuality
