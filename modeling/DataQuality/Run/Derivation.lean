import DataQuality.Plan.Basic
import DataQuality.Run.Ledger

/-!
# Derivation

Metrics computed from counts that were measured before. A percentage is a share of the rows of the
table, and zero when the table is empty.
-/

namespace DataQuality

/-- Counts by metric. -/
abbrev Counts := Metric → Int

/-- The share of the rows in percent. -/
def percentage (count rows : Int) : Float :=
  if rows = 0 then 0.0 else Number.ofInt count * 100.0 / Number.ofInt rows

namespace Metric

/-- The value of a derived metric after the counts it depends on. -/
def derive? (m : Metric) (counts : Counts) : Option Value :=
  let rows := counts .rowCount
  match m with
  | .missingPercentage => some (.float (percentage (counts .missingCount) rows))
  | .valuesCount => some (.int (rows - counts .missingCount))
  | .valuesPercentage => some (.float (percentage (counts .valuesCount) rows))
  | .validPercentage => some (.float (percentage (counts .validCount) rows))
  | .invalidCount => some (.int (rows - counts .missingCount - counts .validCount))
  | .invalidPercentage => some (.float (percentage (counts .invalidCount) rows))
  | .uniqueness => some (.float (percentage (counts .distinct) rows))
  | _ => none

end Metric

/-- The count measured for a key, or what becomes of a metric that needs it. -/
def MeasurementSet.count (s : MeasurementSet) (key : MetricKey) : Except Reading Int :=
  match (s.get? key).map Measurement.reading with
  | some (.measured v) =>
    match v.asWhole? with
    | some i => .ok i
    | none => .error (.failed (key.text ++ " is not a count: " ++ v.display))
  | some (.skipped _) => .error (.skipped (key.text ++ " was skipped"))
  | some (.failed _) | none => .error (.failed (key.text ++ " is unavailable"))

namespace DerivedMetric

/-- The counts of the given dependencies, all others zero; the first that is not to be had decides
what becomes of the metric. -/
def counts (d : DerivedMetric) (s : MeasurementSet) : List Metric → Except Reading Counts
  | [] => .ok fun _ ↦ 0
  | m :: rest =>
    match s.count (d.dependencyKey m) with
    | .ok i => (d.counts s rest).map fun c n ↦ if n = m then i else c n
    | .error reading => .error reading

/-- What becomes of a derived metric after the measurements so far. -/
def reading (d : DerivedMetric) (s : MeasurementSet) : Reading :=
  match d.counts s d.metric.dependencies with
  | .error reading => reading
  | .ok counts =>
    match d.metric.derive? counts with
    | some v => .measured v
    | none => .failed (d.metric.name ++ " is not a derived metric")

/-- The measurement of a derived metric. -/
def measure (d : DerivedMetric) (s : MeasurementSet) : Measurement :=
  ⟨d.key, d.reading s, d.internal⟩

end DerivedMetric

namespace Ledger

/-- Computes and records derived metrics in order, each from what was recorded before it. -/
def derive (l : Ledger) (ds : List DerivedMetric) : Ledger :=
  ds.foldl (fun l d ↦ l.record (d.measure l.measurements)) l

end Ledger

end DataQuality
