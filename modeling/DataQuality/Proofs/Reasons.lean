import DataQuality.Proofs.Computations
import DataQuality.Proofs.ReportedKeys

/-!
# Reasons

Whatever is recorded without a value is recorded with a reason of its own. So the reason that tests
give for keys that are not there at all is never that of a measurement.
-/

namespace DataQuality

/-- A reading does not give the reason of what was not measured at all. -/
def Reading.Explained (r : Reading) : Prop := r.reason? ≠ some BoundName.notMeasured

namespace BoundName

variable {a b : String}

/-- A text with a character that the reason lacks is another text. -/
theorem ne_notMeasured (c : Char) (hc : c ∈ a.toList) (hnot : c ∉ notMeasured.toList) :
    a ≠ notMeasured := by
  rintro rfl
  exact hnot hc

theorem mem_append_left {c : Char} (h : c ∈ a.toList) : c ∈ (a ++ b).toList := by
  rw [String.toList_append]
  exact List.mem_append_left _ h

theorem mem_append_right {c : Char} (h : c ∈ b.toList) : c ∈ (a ++ b).toList := by
  rw [String.toList_append]
  exact List.mem_append_right _ h

/-- A text that begins otherwise is another text. -/
theorem append_ne (c : Char) (hc : c ∈ a.toList) (hnot : c ∉ notMeasured.toList) :
    a ++ b ≠ notMeasured := ne_notMeasured c (mem_append_left hc) hnot

/-- A text that ends otherwise is another text. -/
theorem append_ne' (c : Char) (hc : c ∈ b.toList) (hnot : c ∉ notMeasured.toList) :
    a ++ b ≠ notMeasured := ne_notMeasured c (mem_append_right hc) hnot

end BoundName

open BoundName

theorem ScanError.message_ne (e : ScanError) : e.message ≠ notMeasured := by
  cases e with
  | connection cause =>
    have hW : 'W' ∈ "Warehouse connection failed: Warehouse connection failed".toList := by decide
    exact ne_notMeasured 'W' hW (by decide)
  | schemaDiscovery table context =>
    exact append_ne ':' (mem_append_right (by decide)) (by decide)
  | configuration message => exact append_ne 'C' (by decide) (by decide)
  | queryExecution context => exact append_ne 'Q' (by decide) (by decide)
  | queryTimeout timeout => exact append_ne 'Q' (by decide) (by decide)
  | unsupportedFeature feature w =>
    exact append_ne 'p' (mem_append_right (by decide)) (by decide)
  | cancelled context => exact append_ne 'S' (by decide) (by decide)
  | internal fault => exact append_ne 'I' (by decide) (by decide)
  | io context cause => exact append_ne 'I' (by decide) (by decide)
  | serialization context cause => exact append_ne 'S' (by decide) (by decide)

theorem DialectError.message_ne (e : DialectError) : e.message ≠ notMeasured := by
  cases e <;> exact append_ne' 'c' (by decide) (by decide)

/-! ### What readings say -/

namespace Rows

variable {r : Rows} {message : String}

theorem exists_of_fieldPositions_eq_error {fields : List String}
    (h : r.fieldPositions fields = .error message) :
    ∃ field, message = "group field '" ++ field ++ "' is not a column of the result" := by
  induction fields with
  | nil => cases h
  | cons field rest ih =>
    unfold fieldPositions at h
    split at h
    · exact ih (eq_error_of_map_eq_error h)
    · exact ⟨field, (Except.error.inj h).symm⟩

/-- What a binding may not find in a result. -/
inductive Misses : String → Prop
  | rows : Misses "query returned no rows"
  | bounds : Misses "histogram bounds are unknown"
  | column (name : String) : Misses ("result has no column '" ++ name ++ "'")
  | field (name : String) : Misses ("group field '" ++ name ++ "' is not a column of the result")

/-- A result that cannot be read misses something. -/
theorem misses_of_read {shape : ResultShape} {range : Option BucketRange} {b : Binding}
    (h : r.read shape range b = .error message) : Misses message := by
  cases shape with
  | singleRow =>
    unfold read at h
    dsimp only at h
    split at h
    · next row _ _ =>
      have hcell := eq_error_of_map_eq_error h
      unfold cell at hcell
      split at hcell
      · cases hcell
      · exact Except.error.inj hcell ▸ .column _
    · exact Except.error.inj h ▸ .rows
  | histogram =>
    cases range with
    | some range => cases h
    | none => exact Except.error.inj h ▸ .bounds
  | groups fields =>
    unfold read groupRows at h
    dsimp only at h
    split at h
    · cases h
    · obtain ⟨field, rfl⟩ := exists_of_fieldPositions_eq_error
        (eq_error_of_map_eq_error (eq_error_of_map_eq_error h))
      exact .field field
  | valueList numeric => cases h
  | frequencies numeric => cases h
  | rowCount => cases h

end Rows

namespace QueryGroup

/-- What a measurement of a group may come to when the group has its turn. -/
inductive Gives (w : Warehouse) (g : QueryGroup) : Reading → Prop
  | measured (v : Value) : Gives w g (.measured v)
  | cancelled : Gives w g (.skipped Session.cancelledReason)
  | unbounded {q : HistogramQuery} {measured : MeasurementSet} {reason : String}
      (h : q.bounds measured = .unavailable reason) : Gives w g (.skipped reason)
  | unanswered (e : ScanError) : Gives w g (.failed e.message)
  | misread {message : String} (h : Rows.Misses message) : Gives w g (.failed message)
  | unrendered {q : HistogramQuery} {low high : Float} {e : DialectError}
      (hquery : g.query = .histogram q) (h : q.render w low high = .error e) :
      Gives w g (.failed e.message)

variable {w : Warehouse} {measured : MeasurementSet} {g : QueryGroup}

theorem Gives.of_step {reading : Reading} (h : g.step w measured = .settle reading) :
    g.Gives w reading := by
  unfold GroupSpec.step at h
  split at h
  · cases h
  · next q hquery =>
    split at h
    · next reason hbounds => exact GroupStep.settle.inj h ▸ .unbounded hbounds
    · exact GroupStep.settle.inj h ▸ .measured _
    · split at h
      · cases h
      · next e he => exact GroupStep.settle.inj h ▸ .unrendered hquery he

/-- However a group is answered, each of its measurements comes to one of these. -/
theorem gives_of_mem_run {answer : String → Except ScanError Rows} {m : Measurement}
    (hm : m ∈ (g.run w answer measured).measurements) : g.Gives w m.reading := by
  unfold run at hm
  split at hm
  · next sql range _ =>
    cases hanswer : answer sql with
    | error e =>
      rw [hanswer] at hm
      obtain ⟨b, -, rfl⟩ := List.mem_map.mp hm
      exact .unanswered e
    | ok rows =>
      rw [hanswer] at hm
      obtain ⟨b, -, rfl⟩ := List.mem_map.mp hm
      cases hread : rows.read g.shape range b with
      | ok v => exact .measured v
      | error message => exact .misread (Rows.misses_of_read hread)
  · next reading hstep =>
    obtain ⟨b, -, rfl⟩ := List.mem_map.mp hm
    exact .of_step hstep

theorem TakesTurn.gives {t : Turn} (h : g.TakesTurn w measured t) {m : Measurement}
    (hm : m ∈ t.outcome.measurements) : g.Gives w m.reading := by
  cases h with
  | skipped =>
    obtain ⟨b, -, rfl⟩ := List.mem_map.mp hm
    exact .cancelled
  | ran answer => exact gives_of_mem_run hm

end QueryGroup

/-- What may become of a derived metric. -/
inductive DerivedMetric.Gives : Reading → Prop
  | measured (v : Value) : Gives (.measured v)
  | uncounted (key : MetricKey) (shown : String) :
    Gives (.failed (key.text ++ " is not a count: " ++ shown))
  | skipped (key : MetricKey) : Gives (.skipped (key.text ++ " was skipped"))
  | unavailable (key : MetricKey) : Gives (.failed (key.text ++ " is unavailable"))
  | underived (m : Metric) : Gives (.failed (m.name ++ " is not a derived metric"))

theorem MeasurementSet.gives_of_count {ms : MeasurementSet} {key : MetricKey} {reading : Reading}
    (h : ms.count key = .error reading) : DerivedMetric.Gives reading := by
  unfold count at h
  split at h
  · split at h
    · cases h
    · exact Except.error.inj h ▸ .uncounted _ _
  · exact Except.error.inj h ▸ .skipped _
  · exact Except.error.inj h ▸ .unavailable _
  · exact Except.error.inj h ▸ .unavailable _

namespace DerivedMetric

theorem gives_of_counts {d : DerivedMetric} {ms : MeasurementSet} {deps : List Metric}
    {reading : Reading} (h : d.counts ms deps = .error reading) : Gives reading := by
  induction deps with
  | nil => cases h
  | cons m rest ih =>
    unfold counts at h
    split at h
    · exact ih (eq_error_of_map_eq_error h)
    · next e he => exact Except.error.inj h ▸ MeasurementSet.gives_of_count he

theorem gives_reading (d : DerivedMetric) (ms : MeasurementSet) : Gives (d.reading ms) := by
  unfold reading
  split
  · next e he => exact gives_of_counts he
  · split
    · exact .measured _
    · exact .underived _

end DerivedMetric

/-! ### Reasons of their own -/

/-- Where the value of a key is missing, the key is named. -/
theorem MeasurementSet.ne_of_available_eq_error {ms : MeasurementSet} {key : MetricKey}
    {reason : String} (h : ms.available key = .error reason) : reason ≠ notMeasured := by
  unfold available at h
  split at h
  · cases h
  · obtain rfl := Except.error.inj h
    exact append_ne' 'v' (by decide) (by decide)

theorem HistogramQuery.ne_of_bounds {q : HistogramQuery} {measured : MeasurementSet}
    {reason : String} (h : q.bounds measured = .unavailable reason) : reason ≠ notMeasured := by
  unfold bounds at h
  split at h
  · split at h
    · cases h
    · split at h
      · cases h
      · obtain rfl := HistogramBounds.unavailable.inj h
        exact append_ne' 'c' (by decide) (by decide)
  · next hmin =>
    obtain rfl := HistogramBounds.unavailable.inj h
    exact MeasurementSet.ne_of_available_eq_error hmin
  · next hmax =>
    obtain rfl := HistogramBounds.unavailable.inj h
    exact MeasurementSet.ne_of_available_eq_error hmax

/-- What is missing in a result is named. -/
theorem Rows.Misses.message_ne {message : String} (h : Misses message) : message ≠ notMeasured := by
  cases h with
  | rows => decide
  | bounds => decide
  | column name => exact append_ne' '\'' (by decide) (by decide)
  | field name => exact append_ne' 'f' (by decide) (by decide)

/-- However a turn of a group ends, its measurements are explained. -/
theorem QueryGroup.Gives.explained {w : Warehouse} {g : QueryGroup} {reading : Reading}
    (h : g.Gives w reading) : reading.Explained := by
  intro hreason
  cases h with
  | measured v => cases hreason
  | cancelled => exact absurd (Option.some.inj hreason) (by decide)
  | unbounded h => exact HistogramQuery.ne_of_bounds h (Option.some.inj hreason)
  | unanswered e => exact e.message_ne (Option.some.inj hreason)
  | misread h => exact h.message_ne (Option.some.inj hreason)
  | unrendered => exact DialectError.message_ne _ (Option.some.inj hreason)

/-- What becomes of a derived metric without its counts is explained. -/
theorem DerivedMetric.Gives.explained {reading : Reading} (h : Gives reading) :
    reading.Explained := by
  intro hreason
  cases h with
  | measured v => cases hreason
  | uncounted key shown =>
    exact append_ne 'i' (mem_append_right (by decide)) (by decide) (Option.some.inj hreason)
  | skipped key => exact append_ne' 'k' (by decide) (by decide) (Option.some.inj hreason)
  | unavailable key => exact append_ne' 'v' (by decide) (by decide) (Option.some.inj hreason)
  | underived m => exact append_ne' 'v' (by decide) (by decide) (Option.some.inj hreason)

/-! ### Runs -/

namespace Ledger

/-- Every reading that was recorded is explained. -/
def Explained (l : Ledger) : Prop := ∀ m ∈ l.measurements.entries, m.reading.Explained

theorem Explained.derive {l : Ledger} (hl : l.Explained) (ds : List DerivedMetric) :
    (l.derive ds).Explained := All.derive hl (fun d ms ↦ (d.gives_reading ms).explained) ds

end Ledger

/-- Whatever the warehouse answers, a run records explained readings only. -/
theorem Run.Completes.explained {w : Warehouse} {p : Plan} {r last : Run} {phases : List Phase}
    (h : Run.Completes w p r phases last) (hr : r.ledger.Explained) : last.ledger.Explained :=
  h.all hr fun _ _ _ _ hturn _ hm ↦ (hturn.gives hm).explained

end DataQuality
