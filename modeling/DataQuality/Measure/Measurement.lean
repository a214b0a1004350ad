import DataQuality.Measure.Key
import DataQuality.Measure.Value

/-!
# Measurements

What came of measuring each metric, and the ordered set that a scan collects them in. The first
measurement of a key stays; a second one is refused.
-/

namespace DataQuality

/-- What came of measuring a metric: a value, a failed query, or no attempt at all. -/
inductive Reading where
  | measured (value : Value)
  | failed (error : String)
  | skipped (reason : String)

namespace Reading

/-- How a measurement ended. -/
inductive Status where
  | ok
  | failed
  | skipped
  deriving DecidableEq, Repr

/-- The name of a status in reports. -/
def Status.name : Status → String
  | .ok => "ok"
  | .failed => "failed"
  | .skipped => "skipped"

/-- How the measurement ended. -/
def status : Reading → Status
  | measured _ => .ok
  | failed _ => .failed
  | skipped _ => .skipped

/-- The measured value. -/
def value? : Reading → Option Value
  | measured v => some v
  | _ => none

/-- Why there is no value. -/
def reason? : Reading → Option String
  | measured _ => none
  | failed e => some e
  | skipped r => some r

/-- Whether there is a value. -/
def isOk (r : Reading) : Bool := r.value?.isSome

/-- A reading has a value or a reason for having none, never both. -/
theorem value?_eq_none_iff {r : Reading} : r.value? = none ↔ r.reason?.isSome := by
  cases r <;> simp [value?, reason?]

end Reading

/-- A measurement; an internal one was taken for other metrics only and is not reported. -/
structure Measurement where
  key : MetricKey
  reading : Reading
  internal : Bool

/-- Measurements in the order they were recorded, each key once. -/
structure MeasurementSet where
  entries : List Measurement
  distinct : (entries.map Measurement.key).Nodup

namespace MeasurementSet

/-- No measurements. -/
def empty : MeasurementSet := ⟨[], List.nodup_nil⟩

instance : Inhabited MeasurementSet := ⟨empty⟩

instance : EmptyCollection MeasurementSet := ⟨empty⟩

/-- The measurement of a key. -/
def get? (s : MeasurementSet) (key : MetricKey) : Option Measurement :=
  s.entries.find? fun m ↦ m.key = key

/-- The measured value of a key. -/
def value? (s : MeasurementSet) (key : MetricKey) : Option Value :=
  (s.get? key).bind fun m ↦ m.reading.value?

/-- Whether a key was recorded, whatever came of it. -/
def contains (s : MeasurementSet) (key : MetricKey) : Bool := (s.get? key).isSome

/-- The number of measurements. -/
def size (s : MeasurementSet) : Nat := s.entries.length

theorem get?_eq_none_iff {s : MeasurementSet} {key : MetricKey} :
    s.get? key = none ↔ key ∉ s.entries.map Measurement.key := by
  simp [get?, List.find?_eq_none]

theorem nodup_append {s : MeasurementSet} {m : Measurement} (h : s.get? m.key = none) :
    ((s.entries ++ [m]).map Measurement.key).Nodup := by
  rw [List.map_append, List.map_singleton, List.nodup_append]
  refine ⟨s.distinct, by simp, fun a ha b hb ↦ ?_⟩
  rw [List.mem_singleton] at hb
  exact fun hab ↦ get?_eq_none_iff.mp h (hb ▸ hab ▸ ha)

/-- Records a measurement after the others, or refuses it when its key was recorded before. -/
def insert? (s : MeasurementSet) (m : Measurement) : Option MeasurementSet :=
  if h : s.get? m.key = none then some ⟨s.entries ++ [m], nodup_append h⟩ else none

/-- A measurement is refused exactly when its key was recorded before. -/
theorem insert?_eq_none_iff {s : MeasurementSet} {m : Measurement} :
    s.insert? m = none ↔ s.contains m.key := by
  rw [insert?]
  split
  · next h => simp [contains, h]
  · next h => simpa [contains, Option.isSome_iff_ne_none] using h

/-- An accepted measurement comes last. -/
theorem entries_of_insert? {s t : MeasurementSet} {m : Measurement} (h : s.insert? m = some t) :
    t.entries = s.entries ++ [m] := by
  rw [insert?] at h
  split at h
  · cases h
    rfl
  · cases h

/-- After an accepted measurement its key leads to it, and every other key to what it led to
before. -/
theorem get?_of_insert? {s t : MeasurementSet} {m : Measurement} (h : s.insert? m = some t)
    (key : MetricKey) : t.get? key = if m.key = key then some m else s.get? key := by
  have hnew : s.get? m.key = none := by
    rw [insert?] at h
    split at h
    · assumption
    · cases h
  rw [get?, entries_of_insert? h, List.find?_append, ← get?]
  by_cases hk : m.key = key
  · subst hk
    simp [hnew]
  · simp [hk]

end MeasurementSet

end DataQuality
