import DataQuality.Proofs.Computations
import DataQuality.Proofs.Ledgers

/-!
# Derived metrics

What a list of derived metrics comes to when it is derived in the order of its dependencies: one
measurement for each, and nothing else is touched. As later metrics do not change what earlier ones
were computed from, everything that was derived fits what the ledger holds in the end. So the
statement about one metric is made once, about any set of measurements, and carries over to chains.
-/

namespace DataQuality

/-! ### Whole numbers -/

/-- The value is this whole number, as an integer or as a float. -/
inductive Value.IsWhole : Value → Int → Prop where
  | int (i : Int) : IsWhole (.int i) i
  | float {x : Float} {i : Int} (h : Number.toInt? x = some i) : IsWhole (.float x) i

/-- A value is read as a whole number exactly if it is one. -/
theorem Value.isSome_asWhole?_iff {v : Value} : v.asWhole?.isSome ↔ ∃ i, v.IsWhole i := by
  constructor
  · intro h
    cases v with
    | int i => exact ⟨i, .int i⟩
    | float x =>
      rw [asWhole?, Option.isSome_map] at h
      obtain ⟨i, hi⟩ := Option.isSome_iff_exists.mp h
      exact ⟨i, .float hi⟩
    | _ => cases h
  · rintro ⟨i, hwhole⟩
    cases hwhole with
    | int i => rfl
    | float h => rw [asWhole?, h, Option.map_some, Option.isSome_some]

/-- A whole number of at most 64 bits is read as it is. -/
theorem Value.IsWhole.asWhole?_eq {v : Value} {i : Int} (h : v.IsWhole i)
    (hmin : Number.minInt64 ≤ i) (hmax : i ≤ Number.maxInt64) : v.asWhole? = some i := by
  cases h with
  | int i => rfl
  | float h =>
    have hclamp : Number.clampInt64 i = i := by
      unfold Number.clampInt64
      omega
    rw [asWhole?, h, Option.map_some, hclamp]

namespace MeasurementSet

variable {s : MeasurementSet} {key : MetricKey} {i : Int}

/-- The key was measured, and the value is this whole number. -/
def Counts (s : MeasurementSet) (key : MetricKey) (i : Int) : Prop :=
  ∃ v, s.value? key = some v ∧ v.IsWhole i

/-- How the measurement of a key ended, if there is one. -/
def status? (s : MeasurementSet) (key : MetricKey) : Option Reading.Status :=
  (s.get? key).map fun m ↦ m.reading.status

/-- A count is had exactly if a value was measured that is read as a whole number. -/
theorem count_eq_ok_iff :
    s.count key = .ok i ↔ ∃ v, s.value? key = some v ∧ v.asWhole? = some i := by
  unfold count value?
  cases hm : s.get? key with
  | none => simp
  | some m =>
    rw [Option.map_some, Option.bind_some]
    cases m.reading with
    | measured v => cases hv : v.asWhole? <;> simp [Reading.value?, hv]
    | failed e => simp [Reading.value?]
    | skipped r => simp [Reading.value?]

/-- A count of at most 64 bits is had as it is. -/
theorem Counts.count_eq (h : s.Counts key i) (hmin : Number.minInt64 ≤ i)
    (hmax : i ≤ Number.maxInt64) : s.count key = .ok i := by
  obtain ⟨v, hv, hwhole⟩ := h
  exact count_eq_ok_iff.mpr ⟨v, hv, hwhole.asWhole?_eq hmin hmax⟩

/-- Some count is had exactly if a whole number was measured. -/
theorem exists_count_eq_ok_iff : (∃ i, s.count key = .ok i) ↔ ∃ i, s.Counts key i := by
  constructor
  · rintro ⟨i, h⟩
    obtain ⟨v, hv, hi⟩ := count_eq_ok_iff.mp h
    obtain ⟨j, hj⟩ := Value.isSome_asWhole?_iff.mp (Option.isSome_of_eq_some hi)
    exact ⟨j, v, hv, hj⟩
  · rintro ⟨i, v, hv, hwhole⟩
    obtain ⟨j, hj⟩ :=
      Option.isSome_iff_exists.mp (Value.isSome_asWhole?_iff.mpr ⟨i, hwhole⟩)
    exact ⟨j, count_eq_ok_iff.mpr ⟨v, hv, hj⟩⟩

/-- Where no count is to be had, what needs it is skipped if the measurement was, and else fails. -/
theorem status_of_count_eq_error {r : Reading} (h : s.count key = .error r) :
    r.status = if s.status? key = some .skipped then .skipped else .failed := by
  unfold count at h
  unfold status?
  cases hm : s.get? key with
  | none =>
    rw [hm] at h
    cases h
    rfl
  | some m =>
    rw [hm, Option.map_some] at h
    rw [Option.map_some]
    cases hr : m.reading with
    | measured v =>
      rw [hr] at h
      cases hv : v.asWhole? <;> simp only [hv] at h <;> cases h
      rfl
    | failed e =>
      rw [hr] at h
      cases h
      rfl
    | skipped e =>
      rw [hr] at h
      cases h
      rfl

end MeasurementSet

/-! ### One metric -/

namespace DerivedMetric

variable {d : DerivedMetric} {s : MeasurementSet} {deps : List Metric}

/-- The counts of the dependencies are what was counted for their keys. -/
theorem count_of_counts_eq_ok {c : Counts} (h : d.counts s deps = .ok c) :
    ∀ m ∈ deps, s.count (d.dependencyKey m) = .ok (c m) := by
  induction deps generalizing c with
  | nil => simp
  | cons m rest ih =>
    unfold counts at h
    cases hm : s.count (d.dependencyKey m) with
    | error r =>
      rw [hm] at h
      cases h
    | ok i =>
      rw [hm] at h
      obtain ⟨c', hc', rfl⟩ := exists_of_map_eq_ok h
      intro n hn
      by_cases hnm : n = m
      · simp only [if_pos hnm]
        rw [hnm, hm]
      · simp only [if_neg hnm]
        exact ih hc' n ((List.mem_cons.mp hn).resolve_left hnm)

/-- All counts are there if each of them is. -/
theorem exists_counts_eq_ok (h : ∀ m ∈ deps, ∃ i, s.count (d.dependencyKey m) = .ok i) :
    ∃ c, d.counts s deps = .ok c := by
  induction deps with
  | nil => exact ⟨_, rfl⟩
  | cons m rest ih =>
    obtain ⟨⟨i, hi⟩, hrest⟩ := List.forall_mem_cons.mp h
    obtain ⟨c, hc⟩ := ih hrest
    rw [counts, hi, hc]
    exact ⟨_, rfl⟩

/-- The first count that is not to be had decides what becomes of the metric. -/
theorem counts_append_eq_error {usable : List Metric} (rest : List Metric) {m : Metric}
    {r : Reading} (husable : ∀ n ∈ usable, ∃ i, s.count (d.dependencyKey n) = .ok i)
    (hm : s.count (d.dependencyKey m) = .error r) :
    d.counts s (usable ++ m :: rest) = .error r := by
  induction usable with
  | nil => rw [List.nil_append, counts, hm]
  | cons n usable ih =>
    obtain ⟨⟨i, hi⟩, hrest⟩ := List.forall_mem_cons.mp husable
    rw [List.cons_append, counts, hi, ih hrest]
    rfl

/-- A metric for which a count is not to be had has no value. -/
theorem status_ne_ok_of_counts {r : Reading} (h : d.counts s deps = .error r) :
    r.status ≠ .ok := by
  induction deps with
  | nil => cases h
  | cons m rest ih =>
    unfold counts at h
    cases hm : s.count (d.dependencyKey m) with
    | ok i =>
      rw [hm] at h
      cases hrest : d.counts s rest with
      | ok c =>
        rw [hrest] at h
        cases h
      | error r' =>
        rw [hrest] at h
        cases h
        exact ih hrest
    | error r' =>
      rw [hm] at h
      cases h
      rw [MeasurementSet.status_of_count_eq_error hm]
      split <;> decide

/-- A metric of a column is computed from counts of that column and the rows of the table. -/
theorem dependencyKey_eq (d : DerivedMetric) (m : Metric) :
    d.dependencyKey m = ⟨if m = .rowCount then none else d.key.column, m.name⟩ := by
  unfold dependencyKey Metric.isTableWide MetricKey.ofTable MetricKey.ofColumn
  cases d.key.column <;> by_cases hm : m = .rowCount <;> simp [hm]

end DerivedMetric

/-- The count of which a percentage is the share. -/
def Metric.part? : Metric → Option Metric
  | .missingPercentage => some .missingCount
  | .valuesPercentage => some .valuesCount
  | .validPercentage => some .validCount
  | .invalidPercentage => some .invalidCount
  | .uniqueness => some .distinct
  | _ => none

namespace DerivedMetric

/-- A value adds up with counts of the same column to the rows of the table, or is the share of one
of them in the rows. -/
structure Balances (d : DerivedMetric) (s : MeasurementSet) (v : Value) : Prop where
  values : d.metric = .valuesCount → ∀ missing rows,
    s.Counts ⟨d.key.column, "missing_count"⟩ missing → s.Counts ⟨none, "row_count"⟩ rows →
      ∃ i, v = .int i ∧ i + missing = rows
  invalid : d.metric = .invalidCount → ∀ valid missing rows,
    s.Counts ⟨d.key.column, "valid_count"⟩ valid →
      s.Counts ⟨d.key.column, "missing_count"⟩ missing → s.Counts ⟨none, "row_count"⟩ rows →
        ∃ i, v = .int i ∧ i + valid + missing = rows
  share : ∀ part, d.metric.part? = some part → ∀ count rows,
    s.Counts ⟨d.key.column, part.name⟩ count → s.Counts ⟨none, "row_count"⟩ rows →
      v = .float (if rows = 0 then 0.0 else Number.ofInt count * 100.0 / Number.ofInt rows)

/-- What becomes of a derived metric is settled by measurements: it has a value exactly if all that
it is computed from was counted, and else the first that was not decides. Where the counts fit 64
bits, the value balances them. -/
structure Settles (d : DerivedMetric) (s : MeasurementSet) (reading : Reading) : Prop where
  ok_iff : reading.status = .ok ↔ ∀ key ∈ d.reads, ∃ i, s.Counts key i
  unusable : ∀ usable key rest, d.reads = usable ++ key :: rest →
    (∀ other ∈ usable, ∃ i, s.Counts other i) → (¬ ∃ i, s.Counts key i) →
      reading.status = if s.status? key = some .skipped then .skipped else .failed
  balanced : ∀ v, reading = .measured v →
    (∀ key ∈ d.reads, ∀ i, s.Counts key i → Number.minInt64 ≤ i ∧ i ≤ Number.maxInt64) →
      d.Balances s v

variable {d : DerivedMetric} {s : MeasurementSet} {deps : List Metric}

/-- The counts that were measured are those a metric is computed from. -/
theorem balances_of_counts {c : Counts} {v : Value} (hv : d.metric.derive? c = some v)
    (hc : ∀ m ∈ d.metric.dependencies, ∀ i,
      s.Counts ⟨if m = .rowCount then none else d.key.column, m.name⟩ i → c m = i) :
    d.Balances s v := by
  refine ⟨?_, ?_, ?_⟩
  · intro hmetric missing rows hmissing hrows
    rw [hmetric] at hv hc
    cases hv
    refine ⟨_, rfl, ?_⟩
    rw [hc .missingCount (by decide) missing hmissing, hc .rowCount (by decide) rows hrows]
    omega
  · intro hmetric valid missing rows hvalid hmissing hrows
    rw [hmetric] at hv hc
    cases hv
    refine ⟨_, rfl, ?_⟩
    rw [hc .validCount (by decide) valid hvalid, hc .missingCount (by decide) missing hmissing,
      hc .rowCount (by decide) rows hrows]
    omega
  · intro part hpart count rows hcount hrows
    have hmem : part ∈ d.metric.dependencies ∧ Metric.rowCount ∈ d.metric.dependencies ∧
        part ≠ .rowCount := by
      revert hpart
      cases d.metric <;> rintro ⟨⟩ <;> decide
    have hshare : v = .float (percentage (c part) (c .rowCount)) := by
      revert hpart hv
      cases d.metric <;> rintro ⟨⟩ ⟨⟩ <;> rfl
    rw [hshare, hc part hmem.1 count (by rwa [if_neg hmem.2.2]), hc .rowCount hmem.2.1 rows hrows,
      percentage]

/-- Whatever was measured settles what becomes of a derived metric. -/
theorem settles_reading (hderived : d.metric.computation = .derived) (s : MeasurementSet) :
    d.Settles s (d.reading s) := by
  have hreads {P : MetricKey → Prop} :
      (∀ key ∈ d.reads, P key) ↔ ∀ m ∈ d.metric.dependencies, P (d.dependencyKey m) :=
    List.forall_mem_map
  cases hcounts : d.counts s d.metric.dependencies with
  | ok c =>
    have hcount := count_of_counts_eq_ok hcounts
    obtain ⟨v, hv⟩ : ∃ v, d.metric.derive? c = some v := by
      revert hderived
      cases d.metric <;> rintro ⟨⟩ <;> exact ⟨_, rfl⟩
    have hreading : d.reading s = .measured v := by
      unfold reading
      rw [hcounts]
      dsimp only
      rw [hv]
    have hall : ∀ key ∈ d.reads, ∃ i, s.Counts key i :=
      hreads.mpr fun m hm ↦ MeasurementSet.exists_count_eq_ok_iff.mp ⟨c m, hcount m hm⟩
    rw [hreading]
    refine ⟨iff_of_true rfl hall, ?_, ?_⟩
    · intro usable key rest hsplit _ hnot
      exact absurd (hall key (hsplit ▸ List.mem_append_right _ List.mem_cons_self)) hnot
    · intro v' hv' hfits
      cases hv'
      refine balances_of_counts hv fun m hm i hi ↦ ?_
      rw [← dependencyKey_eq] at hi
      obtain ⟨hmin, hmax⟩ := hreads.mp hfits m hm i hi
      exact Except.ok.inj ((hcount m hm).symm.trans (hi.count_eq hmin hmax))
  | error r =>
    have hreading : d.reading s = r := by
      unfold reading
      rw [hcounts]
    rw [hreading]
    refine ⟨iff_of_false (status_ne_ok_of_counts hcounts) fun hall ↦ ?_, ?_, ?_⟩
    · have hcount : ∀ m ∈ d.metric.dependencies, ∃ i, s.count (d.dependencyKey m) = .ok i :=
        fun m hm ↦ MeasurementSet.exists_count_eq_ok_iff.mpr (hreads.mp hall m hm)
      obtain ⟨c, hc⟩ := exists_counts_eq_ok hcount
      rw [hcounts] at hc
      cases hc
    · intro usable key rest hsplit husable hnot
      obtain ⟨before, after, hdeps, rfl, hafter⟩ := List.map_eq_append_iff.mp hsplit
      obtain ⟨m, later, rfl, rfl, rfl⟩ := List.map_eq_cons_iff.mp hafter
      cases hm : s.count (d.dependencyKey m) with
      | ok i => exact absurd (MeasurementSet.exists_count_eq_ok_iff.mp ⟨i, hm⟩) hnot
      | error r' =>
        have hbefore : ∀ n ∈ before, ∃ i, s.count (d.dependencyKey n) = .ok i := fun n hn ↦
          MeasurementSet.exists_count_eq_ok_iff.mpr (husable _ (List.mem_map_of_mem hn))
        have herror := counts_append_eq_error later hbefore hm
        rw [← hdeps, hcounts] at herror
        cases herror
        exact MeasurementSet.status_of_count_eq_error hm
    · intro v hv _
      rw [hv] at hcounts
      exact absurd rfl (status_ne_ok_of_counts hcounts)

end DerivedMetric

/-! ### Lists of metrics -/

/-- No metric is computed from itself or a later one. -/
structure InDependencyOrder (ds : List DerivedMetric) : Prop where
  self : ∀ d ∈ ds, d.key ∉ d.reads
  later : ds.Pairwise fun d e ↦ e.key ∉ d.reads

namespace Ledger

variable {l : Ledger} {ds : List DerivedMetric}

/-- Measurements of new keys come after those before them and are no faults. -/
theorem recordAll_of_nodup {ms : List Measurement}
    (h : (l.keys ++ ms.map Measurement.key).Nodup) :
    (l.recordAll ms).measurements.entries = l.measurements.entries ++ ms ∧
      (l.recordAll ms).faults = l.faults := by
  induction ms generalizing l with
  | nil => simp
  | cons m rest ih =>
    have hnew : m.key ∉ l.keys := fun hmem ↦
      (List.nodup_append.mp h).2.2 _ hmem _ List.mem_cons_self rfl
    have hentries := entries_record_of_not_mem hnew
    have hfaults : (l.record m).faults = l.faults := by
      obtain ⟨hmem, -⟩ | ⟨-, -, hfaults⟩ := l.record_cases m
      · exact absurd hmem hnew
      · exact hfaults
    have hkeys : (l.record m).keys = l.keys ++ [m.key] := by
      rw [keys, hentries, List.map_append, List.map_singleton, keys]
    obtain ⟨hall, hnone⟩ := ih (l := l.record m) (by simpa [hkeys] using h)
    change ((l.record m).recordAll rest).measurements.entries = _ ∧
      ((l.record m).recordAll rest).faults = _
    rw [hall, hnone, hentries, hfaults, List.append_assoc]
    exact ⟨rfl, rfl⟩

/-- In the order of dependencies, later metrics do not change what earlier ones were computed from:
each fits what the ledger holds in the end. -/
theorem derivations_eq_map (h : InDependencyOrder ds) :
    l.derivations ds = ds.map fun d ↦ d.measure (l.derive ds).measurements := by
  induction ds generalizing l with
  | nil => rfl
  | cons d rest ih =>
    obtain ⟨hself, hrest⟩ := List.forall_mem_cons.mp h.self
    obtain ⟨hd, hlater⟩ := List.pairwise_cons.mp h.later
    have hmeasure : d.measure l.measurements = d.measure (l.derive (d :: rest)).measurements := by
      refine d.measure_congr fun key hkey ↦ ?_
      rw [derive_eq_recordAll, get?_recordAll, List.find?_eq_none.mpr, Option.or_none]
      intro m hm
      have hmem := List.mem_map_of_mem (f := Measurement.key) hm
      rw [map_key_derivations] at hmem
      obtain ⟨e, he, hekey⟩ := List.mem_map.mp hmem
      obtain rfl | he := List.mem_cons.mp he
      · simpa [← hekey] using fun heq : e.key = key ↦ hself (heq ▸ hkey)
      · simpa [← hekey] using fun heq : e.key = key ↦ hd e he (heq ▸ hkey)
    rw [derivations, List.map_cons, ← hmeasure, ih ⟨hrest, hlater⟩]
    rfl

/-- Metrics that are derived in the order of their dependencies, each under a key of its own that is
new, add one measurement each, in order, and nothing else: no fault, and no change to what was
measured before. What becomes of each of them is settled by what the ledger holds in the end. -/
theorem exists_derive_eq_append (l : Ledger) (ds : List DerivedMetric)
    (hderived : ∀ d ∈ ds, d.metric.computation = .derived)
    (hdistinct : (ds.map DerivedMetric.key).Nodup)
    (hnew : ∀ d ∈ ds, l.measurements.get? d.key = none) (horder : InDependencyOrder ds) :
    (l.derive ds).faults = l.faults ∧
      ∃ ms, (l.derive ds).measurements.entries = l.measurements.entries ++ ms ∧
        List.Forall₂ (fun d m ↦ m.key = d.key ∧ m.internal = d.internal ∧
          d.Settles (l.derive ds).measurements m.reading) ds ms := by
  have hkeys : (l.keys ++ (l.derivations ds).map Measurement.key).Nodup := by
    rw [map_key_derivations]
    refine List.nodup_append.mpr ⟨l.measurements.distinct, hdistinct, ?_⟩
    intro key hkey key' hkey' heq
    obtain ⟨d, hd, rfl⟩ := List.mem_map.mp hkey'
    exact MeasurementSet.get?_eq_none_iff.mp (hnew d hd) (heq ▸ hkey)
  obtain ⟨hentries, hfaults⟩ := recordAll_of_nodup hkeys
  rw [← derive_eq_recordAll] at hentries hfaults
  refine ⟨hfaults, _, hentries, ?_⟩
  rw [derivations_eq_map horder, List.forall₂_map_right_iff, List.forall₂_same]
  intro d hd
  exact ⟨rfl, rfl, DerivedMetric.settles_reading (hderived d hd) _⟩

/-- Metrics of the column `id`, of which the second is computed from the first. -/
def countMetrics : List DerivedMetric :=
  [.valuesCount, .valuesPercentage, .invalidCount].map fun m ↦
    ⟨.ofColumn "id" m.name, m, false⟩

/-- A table of 200 rows; 20 values are missing, and the valid ones were not counted. -/
def counted : Ledger :=
  Ledger.empty.recordAll
    [⟨.ofTable "row_count", .measured (.int 200), false⟩,
      ⟨.ofColumn "id" "missing_count", .measured (.int 20), false⟩,
      ⟨.ofColumn "id" "valid_count", .skipped "cancelled", false⟩]

/-- The values are counted and their share is computed from that; the invalid ones are skipped along
with the valid ones. -/
theorem exists_derive_countMetrics :
    (∀ d ∈ countMetrics, d.metric.computation = .derived) ∧
      (countMetrics.map DerivedMetric.key).Nodup ∧
      (∀ d ∈ countMetrics, counted.measurements.get? d.key = none) ∧
      InDependencyOrder countMetrics ∧
      (counted.derive countMetrics).faults = [] ∧
      (∃ ms, (counted.derive countMetrics).measurements.entries =
          counted.measurements.entries ++ ms ∧
        List.Forall₂ (fun d m ↦ m.key = d.key ∧ m.internal = d.internal ∧
          d.Settles (counted.derive countMetrics).measurements m.reading) countMetrics ms) ∧
      (counted.derive countMetrics).measurements.value? (.ofColumn "id" "values_count") =
        some (.int 180) ∧
      (counted.derive countMetrics).measurements.status? (.ofColumn "id" "values_percentage") =
        some .ok ∧
      (counted.derive countMetrics).measurements.status? (.ofColumn "id" "invalid_count") =
        some .skipped := by
  have hderived : ∀ d ∈ countMetrics, d.metric.computation = .derived := by decide
  have hdistinct : (countMetrics.map DerivedMetric.key).Nodup := by decide
  have hnew : ∀ d ∈ countMetrics, counted.measurements.get? d.key = none := by
    have hkeys : ∀ d ∈ countMetrics, d.key ∉ counted.keys := by decide
    exact fun d hd ↦ MeasurementSet.get?_eq_none_iff.mpr (hkeys d hd)
  have horder : InDependencyOrder countMetrics := ⟨by decide, by decide⟩
  obtain ⟨hfaults, hentries⟩ :=
    exists_derive_eq_append counted countMetrics hderived hdistinct hnew horder
  exact ⟨hderived, hdistinct, hnew, horder, hfaults, hentries, rfl, rfl, rfl⟩

end Ledger

end DataQuality
