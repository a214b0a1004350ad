import DataQuality.Run.Binding
import DataQuality.Scan.Error

/-!
# Running a group

A group is the unit of failure: it asks at most one query, and has one measurement for each of its
bindings however the query ends. A histogram waits for the bounds of its column; without them it
asks nothing.
-/

namespace DataQuality

/-- A query that was asked and what came of it: a number of rows, or an error. -/
structure AskedQuery where
  sql : String
  result : Except ScanError Nat

namespace AskedQuery

/-- Whether rows came back. -/
def succeeded (q : AskedQuery) : Bool := q.result.isOk

/-- The error, if the query failed. -/
def error? (q : AskedQuery) : Option ScanError :=
  match q.result with
  | .ok _ => none
  | .error e => some e

/-- The number of rows that came back. -/
def rowCount (q : AskedQuery) : Nat :=
  match q.result with
  | .ok n => n
  | .error _ => 0

end AskedQuery

/-- What running a group came to; `asked` is the query, if there was one. -/
structure GroupOutcome where
  id : Nat
  label : String
  measurements : List Measurement
  asked : Option AskedQuery

namespace GroupOutcome

/-- Whether the query of the group was asked and rows came back. -/
def succeeded (o : GroupOutcome) : Bool := o.asked.any AskedQuery.succeeded

/-- The error of the query. -/
def error? (o : GroupOutcome) : Option ScanError := o.asked.bind AskedQuery.error?

end GroupOutcome

/-- What a histogram query knows of its bounds. -/
inductive HistogramBounds where
  | range (range : BucketRange)
  | empty
  | unavailable (reason : String)

/-- The measured value of a key, or why there is none. -/
def MeasurementSet.available (s : MeasurementSet) (key : MetricKey) : Except String Value :=
  match s.value? key with
  | some v => .ok v
  | none => .error (key.text ++ " is unavailable")

/-- The bounds of a histogram: a column without values has null bounds, and an empty histogram. -/
def HistogramQuery.bounds (q : HistogramQuery) (measured : MeasurementSet) : HistogramBounds :=
  match measured.available q.min, measured.available q.max with
  | .ok min, .ok max =>
    match min.asFloat?, max.asFloat? with
    | some low, some high => .range ⟨low, high, q.buckets⟩
    | _, _ =>
      if min.isNull || max.isNull then .empty
      else .unavailable (q.min.text ++ " is not numeric")
  | .error reason, _ => .unavailable reason
  | .ok _, .error reason => .unavailable reason

/-- What a group does when its turn comes. -/
inductive GroupStep where
  | ask (sql : String) (range : Option BucketRange)
  | settle (reading : Reading)

/-- The step of a group after earlier measurements. -/
def GroupSpec.step (w : Warehouse) (g : GroupSpec) (measured : MeasurementSet) : GroupStep :=
  match g.query with
  | .sql text => .ask text none
  | .histogram q =>
    match q.bounds measured with
    | .unavailable reason => .settle (.skipped reason)
    | .empty => .settle (.measured (.histogram ⟨[], []⟩))
    | .range range =>
      match q.render w range.min range.max with
      | .ok sql => .ask sql (some range)
      | .error e => .settle (.failed e.message)

namespace QueryGroup

/-- The outcome of a group that asks nothing: all of its measurements have the same reading. -/
def settled (g : QueryGroup) (reading : Reading) : GroupOutcome :=
  ⟨g.id, g.label, Binding.all g.bindings reading, none⟩

/-- The outcome of a group that is skipped. -/
def skip (g : QueryGroup) (reason : String) : GroupOutcome := g.settled (.skipped reason)

/-- The outcome of a group whose query was answered. -/
def answered (g : QueryGroup) (sql : String) (range : Option BucketRange) :
    Except ScanError Rows → GroupOutcome
  | .ok rows => ⟨g.id, g.label, g.measure rows range, some ⟨sql, .ok rows.size⟩⟩
  | .error e =>
    ⟨g.id, g.label, Binding.all g.bindings (.failed e.message), some ⟨sql, .error e⟩⟩

/-- Runs a group after earlier measurements; `answer` is what the warehouse says to a query. -/
def run (w : Warehouse) (answer : String → Except ScanError Rows) (g : QueryGroup)
    (measured : MeasurementSet) : GroupOutcome :=
  match g.step w measured with
  | .ask sql range => g.answered sql range (answer sql)
  | .settle reading => g.settled reading

/-- However a group ends, it measures the keys of its bindings in their order. -/
theorem keys_run (w : Warehouse) (answer : String → Except ScanError Rows) (g : QueryGroup)
    (measured : MeasurementSet) :
    (g.run w answer measured).measurements.map Measurement.key = g.keys := by
  unfold run
  split
  · next sql range _ =>
    cases answer sql <;>
      simp [answered, GroupSpec.measure, Binding.all, GroupSpec.keys, Binding.measure]
  · simp [settled, Binding.all, GroupSpec.keys]

end QueryGroup

end DataQuality
