import Mathlib.Data.List.Forall2
import DataQuality.Run.Derivation

/-!
# Recorded measurements

What a ledger holds after measurements were recorded in order. The first measurement of a key is the
one that is found, and there is no fault as long as no key comes twice. Two ledgers that record
measurements of the same keys stay alike except for keys that are given up.
-/

namespace DataQuality

namespace Ledger

/-- The recorded keys in order. -/
def keys (l : Ledger) : List MetricKey := l.measurements.entries.map Measurement.key

/-- A measurement of a recorded key is a fault and nothing else; any other comes last. -/
theorem record_cases (l : Ledger) (m : Measurement) :
    (m.key ∈ l.keys ∧ (l.record m).measurements = l.measurements ∧
        (l.record m).faults = l.faults ++ [.writtenTwice m.key]) ∨
      (m.key ∉ l.keys ∧ l.measurements.insert? m = some (l.record m).measurements ∧
        (l.record m).faults = l.faults) := by
  unfold record
  cases h : l.measurements.insert? m with
  | none =>
    left
    rw [MeasurementSet.insert?_eq_none_iff, MeasurementSet.contains, Option.isSome_iff_ne_none,
      ne_eq, MeasurementSet.get?_eq_none_iff, not_not] at h
    exact ⟨h, rfl, rfl⟩
  | some s =>
    right
    refine ⟨?_, rfl, rfl⟩
    intro hmem
    have hnone : l.measurements.insert? m = none := by
      rw [MeasurementSet.insert?_eq_none_iff, MeasurementSet.contains, Option.isSome_iff_ne_none,
        ne_eq, MeasurementSet.get?_eq_none_iff, not_not]
      exact hmem
    rw [hnone] at h
    cases h

/-- An accepted measurement comes after those before it. -/
theorem entries_record_of_not_mem {l : Ledger} {m : Measurement} (h : m.key ∉ l.keys) :
    (l.record m).measurements.entries = l.measurements.entries ++ [m] := by
  rcases l.record_cases m with ⟨hmem, _, _⟩ | ⟨_, hinsert, _⟩
  · exact absurd hmem h
  · exact MeasurementSet.entries_of_insert? hinsert

/-- There are no faults exactly when no key is recorded twice. -/
theorem faults_recordAll_eq_nil_iff {l : Ledger} {ms : List Measurement} :
    (l.recordAll ms).faults = [] ↔
      l.faults = [] ∧ (l.keys ++ ms.map Measurement.key).Nodup := by
  induction ms generalizing l with
  | nil =>
    rw [recordAll_nil, List.map_nil, List.append_nil]
    exact (and_iff_left l.measurements.distinct).symm
  | cons m rest ih =>
    change ((l.record m).recordAll rest).faults = [] ↔ _
    rw [ih, List.map_cons]
    rcases l.record_cases m with ⟨hmem, _, hfaults⟩ | ⟨hnew, hinsert, hfaults⟩
    · rw [hfaults]
      refine iff_of_false (by simp) ?_
      rintro ⟨_, hnodup⟩
      exact (List.nodup_append.mp hnodup).2.2 _ hmem _ List.mem_cons_self rfl
    · have hkeys : (l.record m).keys = l.keys ++ [m.key] := by
        rw [keys, entries_record_of_not_mem hnew, List.map_append, List.map_singleton, keys]
      rw [hfaults, hkeys, List.append_assoc, List.singleton_append]

/-- A measurement of another key does not change what is found, and one of the key itself is found
only if there was none before. -/
theorem get?_record (l : Ledger) (m : Measurement) (key : MetricKey) :
    (l.record m).measurements.get? key =
      (l.measurements.get? key).or (if m.key = key then some m else none) := by
  rcases l.record_cases m with ⟨hmem, hset, _⟩ | ⟨hnew, hinsert, _⟩
  · rw [hset]
    split
    · next hkey =>
      have hsome : l.measurements.get? key ≠ none := by
        rw [← hkey, ne_eq, MeasurementSet.get?_eq_none_iff, not_not]
        exact hmem
      exact (Option.or_eq_left_of_isSome (Option.isSome_iff_ne_none.mpr hsome)).symm
    · exact Option.or_none.symm
  · rw [MeasurementSet.get?_of_insert? hinsert]
    split
    · next hkey =>
      have hnone : l.measurements.get? key = none := by
        rw [← hkey, MeasurementSet.get?_eq_none_iff]
        exact hnew
      rw [hnone, Option.none_or]
    · exact Option.or_none.symm

/-- The first measurement of a key is the one that is found. -/
theorem get?_recordAll (l : Ledger) (ms : List Measurement) (key : MetricKey) :
    (l.recordAll ms).measurements.get? key =
      (l.measurements.get? key).or (ms.find? fun m ↦ m.key = key) := by
  induction ms generalizing l with
  | nil => exact Option.or_none.symm
  | cons m rest ih =>
    change ((l.record m).recordAll rest).measurements.get? key = _
    rw [ih, get?_record, Option.or_assoc, List.find?_cons]
    by_cases hkey : m.key = key <;> simp [hkey]

/-- A key is recorded if it was recorded before or one of the measurements has it. -/
theorem contains_recordAll {l : Ledger} {ms : List Measurement} {key : MetricKey} :
    (l.recordAll ms).measurements.contains key = true ↔
      l.measurements.contains key = true ∨ key ∈ ms.map Measurement.key := by
  rw [MeasurementSet.contains, get?_recordAll, Option.isSome_or, Bool.or_eq_true,
    List.find?_isSome, MeasurementSet.contains]
  simp

/-- A recorded measurement stays. -/
theorem get?_recordAll_of_contains {l : Ledger} {key : MetricKey}
    (h : l.measurements.contains key = true) (ms : List Measurement) :
    (l.recordAll ms).measurements.get? key = l.measurements.get? key := by
  rw [get?_recordAll, Option.or_eq_left_of_isSome h]

/-- Every reading that was recorded meets a condition. -/
def All (P : Reading → Prop) (l : Ledger) : Prop := ∀ m ∈ l.measurements.entries, P m.reading

/-- What is recorded with what meets a condition meets it too. -/
theorem All.recordAll {P : Reading → Prop} {l : Ledger} {ms : List Measurement} (hl : l.All P)
    (h : ∀ m ∈ ms, P m.reading) : (l.recordAll ms).All P := by
  induction ms generalizing l with
  | nil => exact hl
  | cons m rest ih =>
    obtain ⟨hm, hrest⟩ := List.forall_mem_cons.mp h
    refine ih ?_ hrest
    intro n hn
    rcases l.record_cases m with ⟨_, hsame, _⟩ | ⟨hnew, _, _⟩
    · rw [hsame] at hn
      exact hl n hn
    · rw [entries_record_of_not_mem hnew, List.mem_append, List.mem_singleton] at hn
      obtain hn | rfl := hn
      · exact hl n hn
      · exact hm

/-! ### Derivation -/

/-- The measurements of derived metrics in order, each computed from what was recorded before. -/
def derivations (l : Ledger) : List DerivedMetric → List Measurement
  | [] => []
  | d :: rest =>
    let m := d.measure l.measurements
    m :: (l.record m).derivations rest

/-- To derive metrics is to record their measurements. -/
theorem derive_eq_recordAll (l : Ledger) (ds : List DerivedMetric) :
    l.derive ds = l.recordAll (l.derivations ds) := by
  induction ds generalizing l with
  | nil => rfl
  | cons d rest ih => exact ih (l.record (d.measure l.measurements))

/-- If a condition is met by whatever becomes of a derived metric, deriving keeps to it. -/
theorem All.derive {P : Reading → Prop} {l : Ledger} (hl : l.All P)
    (h : ∀ (d : DerivedMetric) (ms : MeasurementSet), P (d.reading ms)) (ds : List DerivedMetric) :
    (l.derive ds).All P := by
  rw [derive_eq_recordAll]
  refine hl.recordAll ?_
  clear hl
  induction ds generalizing l with
  | nil => simp [derivations]
  | cons d rest ih =>
    rw [derivations]
    exact List.forall_mem_cons.mpr ⟨h d _, ih⟩

/-- Whatever comes of them, derived metrics are recorded under their keys. -/
@[simp] theorem map_key_derivations (l : Ledger) (ds : List DerivedMetric) :
    (l.derivations ds).map Measurement.key = ds.map DerivedMetric.key := by
  induction ds generalizing l with
  | nil => rfl
  | cons d rest ih =>
    rw [derivations, List.map_cons, ih, List.map_cons]
    rfl

end Ledger

namespace DerivedMetric

variable {d : DerivedMetric} {ms ns : MeasurementSet}

/-- A metric is derived alike from measurements that agree on the keys it reads. -/
theorem measure_congr (h : ∀ key ∈ d.reads, ms.get? key = ns.get? key) :
    d.measure ms = d.measure ns := by
  have hcounts : ∀ deps : List Metric, (∀ m ∈ deps, d.dependencyKey m ∈ d.reads) →
      d.counts ms deps = d.counts ns deps := by
    intro deps
    induction deps with
    | nil => exact fun _ ↦ rfl
    | cons m rest ih =>
      intro hreads
      obtain ⟨hm, hrest⟩ := List.forall_mem_cons.mp hreads
      have hcount : ms.count (d.dependencyKey m) = ns.count (d.dependencyKey m) := by
        unfold MeasurementSet.count
        rw [h _ hm]
      rw [counts, counts, hcount, ih hrest]
  unfold measure reading
  rw [hcounts _ fun _ hm ↦ List.mem_map_of_mem hm]

end DerivedMetric

/-- Ledgers in which the same is found for what metrics read derive the same. -/
theorem Ledger.derivations_congr_of_reads {P : MetricKey → Prop} {l k : Ledger}
    {ds : List DerivedMetric} (hreads : ∀ d ∈ ds, ∀ key ∈ d.reads, P key)
    (h : ∀ key, P key → l.measurements.get? key = k.measurements.get? key) :
    l.derivations ds = k.derivations ds := by
  induction ds generalizing l k with
  | nil => rfl
  | cons d rest ih =>
    obtain ⟨hd, hrest⟩ := List.forall_mem_cons.mp hreads
    have hmeasure : d.measure l.measurements = d.measure k.measurements :=
      d.measure_congr fun key hkey ↦ h key (hd key hkey)
    rw [derivations, derivations, hmeasure]
    refine congrArg _ (ih hrest fun key hkey ↦ ?_)
    rw [get?_record, get?_record, h key hkey]

/-- Ledgers in which the same is found derive the same. -/
theorem Ledger.derivations_congr {l k : Ledger} {ds : List DerivedMetric}
    (h : ∀ key, l.measurements.get? key = k.measurements.get? key) :
    l.derivations ds = k.derivations ds :=
  derivations_congr_of_reads (P := fun _ ↦ True) (fun _ _ _ _ ↦ trivial) fun key _ ↦ h key

/-! ### Ledgers that are alike -/

/-- Two measurements of the same key that differ at most in what came of measuring it, and only if
the key is given up. -/
structure Measurement.Alike (except : MetricKey → Prop) (m n : Measurement) : Prop where
  key : m.key = n.key
  internal : m.internal = n.internal
  same : ¬ except m.key → m = n

namespace Measurement.Alike

variable {except other : MetricKey → Prop}

theorem refl (m : Measurement) : Alike except m m := ⟨rfl, rfl, fun _ ↦ rfl⟩

/-- With more keys given up, measurements stay alike. -/
theorem mono (h : ∀ key, except key → other key) {m n : Measurement} (ha : Alike except m n) :
    Alike other m n :=
  ⟨ha.key, ha.internal, fun hk ↦ ha.same (mt (h m.key) hk)⟩

/-- Measurements that are alike have the same keys. -/
theorem map_key_eq {ms ns : List Measurement} (h : List.Forall₂ (Alike except) ms ns) :
    ms.map Measurement.key = ns.map Measurement.key := by
  induction h with
  | nil => rfl
  | cons hm _ ih => rw [List.map_cons, List.map_cons, hm.key, ih]

/-- The same measurement is found for a key that is not given up. -/
theorem find?_eq {ms ns : List Measurement} (h : List.Forall₂ (Alike except) ms ns)
    {key : MetricKey} (hkey : ¬ except key) :
    ms.find? (fun m ↦ m.key = key) = ns.find? (fun m ↦ m.key = key) := by
  induction h with
  | nil => rfl
  | @cons m n _ _ hm _ ih =>
    rw [List.find?_cons, List.find?_cons, ← hm.key, ih]
    by_cases hk : m.key = key
    · rw [hm.same (hk ▸ hkey)]
    · simp [hk]

end Measurement.Alike

/-- Two ledgers with the same keys and faults whose measurements differ only at keys given up. -/
structure Ledger.Alike (except : MetricKey → Prop) (l k : Ledger) : Prop where
  entries : List.Forall₂ (Measurement.Alike except) l.measurements.entries k.measurements.entries
  faults : l.faults = k.faults

namespace Ledger.Alike

variable {except other : MetricKey → Prop} {l k : Ledger}

theorem refl (l : Ledger) : Alike except l l :=
  ⟨List.forall₂_same.mpr fun m _ ↦ Measurement.Alike.refl m, rfl⟩

/-- With more keys given up, ledgers stay alike. -/
theorem mono (h : ∀ key, except key → other key) (ha : Alike except l k) : Alike other l k :=
  ⟨ha.entries.imp fun _ _ hm ↦ hm.mono h, ha.faults⟩

/-- The same is found for a key that is not given up. -/
theorem get?_eq (h : Alike except l k) {key : MetricKey} (hkey : ¬ except key) :
    l.measurements.get? key = k.measurements.get? key :=
  Measurement.Alike.find?_eq h.entries hkey

/-- Ledgers stay alike when measurements that are alike are recorded. -/
theorem record (h : Alike except l k) {m n : Measurement} (hm : Measurement.Alike except m n) :
    Alike except (l.record m) (k.record n) := by
  have hkeys : l.keys = k.keys := Measurement.Alike.map_key_eq h.entries
  rcases l.record_cases m with ⟨hmem, hset, hfaults⟩ | ⟨hnew, _, hfaults⟩
  · rcases k.record_cases n with ⟨_, hset', hfaults'⟩ | ⟨hnew', _, _⟩
    · refine ⟨?_, ?_⟩
      · rw [hset, hset']
        exact h.entries
      · rw [hfaults, hfaults', h.faults, hm.key]
    · rw [hkeys, hm.key] at hmem
      exact absurd hmem hnew'
  · have hnew' : n.key ∉ k.keys := by
      rw [← hkeys, ← hm.key]
      exact hnew
    rcases k.record_cases n with ⟨hmem', _, _⟩ | ⟨_, _, hfaults'⟩
    · exact absurd hmem' hnew'
    · refine ⟨?_, ?_⟩
      · rw [entries_record_of_not_mem hnew, entries_record_of_not_mem hnew']
        exact List.rel_append h.entries (.cons hm .nil)
      · rw [hfaults, hfaults', h.faults]

/-- Ledgers stay alike when lists of measurements that are alike are recorded. -/
theorem recordAll (h : Alike except l k) {ms ns : List Measurement}
    (hms : List.Forall₂ (Measurement.Alike except) ms ns) :
    Alike except (l.recordAll ms) (k.recordAll ns) := by
  induction hms generalizing l k with
  | nil => exact h
  | cons hm _ ih => exact ih (h.record hm)

/-- Ledgers stay alike through derivation, if what is derived from keys given up is given up. -/
theorem derive (h : Alike except l k) {ds : List DerivedMetric}
    (hclosed : ∀ d ∈ ds, ∀ key ∈ d.reads, except key → except d.key) :
    Alike except (l.derive ds) (k.derive ds) := by
  induction ds generalizing l k with
  | nil => exact h
  | cons d rest ih =>
    obtain ⟨hd, hrest⟩ := List.forall_mem_cons.mp hclosed
    refine ih (h.record ⟨rfl, rfl, ?_⟩) hrest
    intro hkept
    exact d.measure_congr fun key hkey ↦ h.get?_eq (mt (hd key hkey) hkept)

end Ledger.Alike

end DataQuality
