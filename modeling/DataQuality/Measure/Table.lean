import Std.Data.HashMap
import DataQuality.Measure.Measurement
import DataQuality.Scan.Error

/-!
# Measurement tables

Measurements in the order they were recorded, and beside them the position of every key, so that no
lookup has to go through the measurements. The two are updated one after the other.
-/

namespace DataQuality

/-- Measurements in the order they were recorded, with the position of each key. Nothing here says
that the positions are right: that is `MeasurementTable.Indexed`. -/
structure MeasurementTable where
  entries : Array Measurement
  positions : Std.HashMap MetricKey Nat

namespace MeasurementTable

/-- No measurements. -/
def empty : MeasurementTable := ⟨#[], ∅⟩

/-- Whether a key was recorded, whatever came of it. -/
def contains (t : MeasurementTable) (key : MetricKey) : Bool := t.positions.contains key

/-- The measurement at the position of a key. -/
def get? (t : MeasurementTable) (key : MetricKey) : Option Measurement :=
  t.positions[key]?.bind fun i ↦ t.entries[i]?

/-- The measured value of a key. -/
def value? (t : MeasurementTable) (key : MetricKey) : Option Value :=
  (t.get? key).bind fun m ↦ m.reading.value?

/-- The number of measurements. -/
def size (t : MeasurementTable) : Nat := t.entries.size

/-- Notes the position that the next measurement will have. -/
def notePosition (t : MeasurementTable) (key : MetricKey) : MeasurementTable :=
  { t with positions := t.positions.insert key t.entries.size }

/-- Puts a measurement after the others. -/
def push (t : MeasurementTable) (m : Measurement) : MeasurementTable :=
  { t with entries := t.entries.push m }

/-- Records a measurement; one of a key that was recorded before is a fault and changes nothing. -/
def insert (t : MeasurementTable) (m : Measurement) :
    Except InternalFault Unit × MeasurementTable :=
  if t.contains m.key then (.error (.writtenTwice m.key), t)
  else (.ok (), (t.notePosition m.key).push m)

/-- Records measurements in order; there is an answer to each. -/
def insertAll (t : MeasurementTable) :
    List Measurement → List (Except InternalFault Unit) × MeasurementTable
  | [] => ([], t)
  | m :: rest =>
    let (answer, t) := t.insert m
    let (answers, t) := t.insertAll rest
    (answer :: answers, t)

end MeasurementTable

end DataQuality
