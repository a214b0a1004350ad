import DataQuality.Measure.Table
import DataQuality.Proofs.KeyedLists
import DataQuality.Proofs.Ledgers

/-!
# First writes

A table of measurements is only as good as the positions it keeps beside them. Recording a
measurement keeps them right, so after any history of measurements, refused ones among them, what
is found for a key is the first measurement of it. Ledgers hold the same.
-/

namespace DataQuality

namespace MeasurementTable

/-- The recorded keys in order. -/
def keys (t : MeasurementTable) : List MetricKey := t.entries.toList.map Measurement.key

/-- The positions are right: a key has a position exactly if it is the key recorded there. -/
def Indexed (t : MeasurementTable) : Prop :=
  ∀ (key : MetricKey) (i : Nat), t.positions[key]? = some i ↔ t.keys[i]? = some key

/-- The measurements that were not refused. -/
def accepted (answers : List (Except InternalFault Unit)) (ms : List Measurement) :
    List Measurement :=
  ((ms.zip answers).filter fun p ↦ p.2.isOk).map Prod.fst

/-! ### Right positions -/

theorem getElem?_concat_eq_some_iff {α : Type} {l : List α} {a b : α} {i : Nat} :
    (l ++ [a])[i]? = some b ↔ l[i]? = some b ∨ i = l.length ∧ a = b := by
  rw [List.getElem?_append]
  split <;> grind

theorem keys_push_notePosition (t : MeasurementTable) (m : Measurement) :
    ((t.notePosition m.key).push m).keys = t.keys ++ [m.key] := by
  simp [keys, push, notePosition]

theorem indexed_empty : empty.Indexed := by
  intro key i
  simp [empty, keys]

namespace Indexed

variable {t : MeasurementTable}

theorem contains_iff (h : t.Indexed) {key : MetricKey} : t.contains key = true ↔ key ∈ t.keys := by
  rw [contains, Std.HashMap.contains_eq_isSome_getElem?, Option.isSome_iff_exists,
    List.mem_iff_getElem?]
  exact exists_congr (h key)

/-- A key that was recorded twice would need two positions. -/
theorem nodup_keys (h : t.Indexed) : t.keys.Nodup := by
  rw [List.nodup_iff_getElem?_ne_getElem?]
  intro i j hij hj heq
  have hkey := List.getElem?_eq_getElem hj
  have hi := (h _ i).mpr (heq.trans hkey)
  rw [(h _ j).mpr hkey] at hi
  cases hi
  exact Nat.lt_irrefl _ hij

/-- What is at the position of a key is the one measurement of it. -/
theorem get?_eq_find? (h : t.Indexed) (key : MetricKey) :
    t.get? key = t.entries.toList.find? fun m ↦ m.key = key := by
  refine Option.ext fun m ↦ ?_
  rw [find?_key_eq_some_iff h.nodup_keys, get?, Option.bind_eq_some_iff]
  constructor
  · rintro ⟨i, hposition, hm⟩
    have hkey := (h key i).mp hposition
    rw [keys, List.getElem?_map, Array.getElem?_toList, hm] at hkey
    exact ⟨by simpa using Array.mem_of_getElem? hm, Option.some.inj hkey⟩
  · rintro ⟨hm, rfl⟩
    obtain ⟨i, hi⟩ := List.mem_iff_getElem?.mp hm
    refine ⟨i, (h m.key i).mpr ?_, by simpa using hi⟩
    rw [keys, List.getElem?_map, hi]
    rfl

theorem contains_eq_isSome_get? (h : t.Indexed) (key : MetricKey) :
    t.contains key = (t.get? key).isSome := by
  rw [Bool.eq_iff_iff, h.contains_iff, h.get?_eq_find?, List.find?_isSome, keys, List.mem_map]
  simp

theorem value?_eq_some_iff (h : t.Indexed) {key : MetricKey} {v : Value} :
    t.value? key = some v ↔
      ∃ m ∈ t.entries.toList, m.key = key ∧ m.reading = .measured v := by
  have hreading (r : Reading) : r.value? = some v ↔ r = .measured v := by
    cases r <;> simp [Reading.value?]
  rw [value?, h.get?_eq_find?, Option.bind_eq_some_iff]
  simp only [find?_key_eq_some_iff h.nodup_keys, hreading, and_assoc]

/-- A measurement of a recorded key is refused and leaves the table as it was; any other one comes
last. -/
theorem insert_cases (h : t.Indexed) (m : Measurement) :
    (m.key ∈ t.keys ∧ t.insert m = (.error (.writtenTwice m.key), t)) ∨
      (m.key ∉ t.keys ∧ t.insert m = (.ok (), (t.notePosition m.key).push m)) := by
  rw [← h.contains_iff, insert]
  split
  · next hold => exact .inl ⟨hold, rfl⟩
  · next hnew => exact .inr ⟨hnew, rfl⟩

/-- To record a measurement keeps the positions right. -/
theorem insert (h : t.Indexed) (m : Measurement) : (t.insert m).2.Indexed := by
  rcases h.insert_cases m with ⟨-, heq⟩ | ⟨hnew, heq⟩
  · rw [heq]
    exact h
  · rw [heq]
    intro key i
    have hlength : t.entries.size = t.keys.length := by simp [keys]
    rw [keys_push_notePosition, getElem?_concat_eq_some_iff]
    change (t.positions.insert m.key t.entries.size)[key]? = some i ↔ _
    rw [Std.HashMap.getElem?_insert, hlength]
    split
    · next hkey =>
      obtain rfl := eq_of_beq hkey
      have hold : t.keys[i]? ≠ some m.key := fun hi ↦ hnew (List.mem_of_getElem? hi)
      simp [hold, eq_comm]
    · next hkey =>
      have hne : m.key ≠ key := by simpa using hkey
      simp [h key i, hne]

end Indexed

/-! ### Histories -/

variable {t : MeasurementTable}

@[simp] theorem insertAll_nil (t : MeasurementTable) : t.insertAll [] = ([], t) := rfl

theorem insertAll_cons (t : MeasurementTable) (m : Measurement) (ms : List Measurement) :
    t.insertAll (m :: ms) =
      ((t.insert m).1 :: ((t.insert m).2.insertAll ms).1, ((t.insert m).2.insertAll ms).2) := rfl

/-- What comes later in a history goes on from what came earlier. -/
theorem insertAll_append (t : MeasurementTable) (ms ns : List Measurement) :
    t.insertAll (ms ++ ns) =
      ((t.insertAll ms).1 ++ ((t.insertAll ms).2.insertAll ns).1,
        ((t.insertAll ms).2.insertAll ns).2) := by
  induction ms generalizing t with
  | nil => rfl
  | cons m rest ih => rw [List.cons_append, insertAll_cons, insertAll_cons, ih, List.cons_append]

theorem length_insertAll (t : MeasurementTable) (ms : List Measurement) :
    (t.insertAll ms).1.length = ms.length := by
  induction ms generalizing t with
  | nil => rfl
  | cons m rest ih => rw [insertAll_cons, List.length_cons, ih, List.length_cons]

/-- The positions are right after any history. -/
theorem Indexed.insertAll (h : t.Indexed) (ms : List Measurement) : (t.insertAll ms).2.Indexed := by
  induction ms generalizing t with
  | nil => exact h
  | cons m rest ih => exact ih (h.insert m)

/-- The measurements that were not refused come last, in order. -/
theorem toList_entries_insertAll (t : MeasurementTable) (ms : List Measurement) :
    (t.insertAll ms).2.entries.toList =
      t.entries.toList ++ accepted (t.insertAll ms).1 ms := by
  induction ms generalizing t with
  | nil => simp [accepted]
  | cons m rest ih =>
    rw [insertAll_cons, ih, MeasurementTable.insert]
    split
    · simp [accepted, Except.isOk, Except.toBool]
    · simp [accepted, push, notePosition, Except.isOk, Except.toBool]

/-- Each measurement is answered by the table that its predecessors left. -/
theorem getElem?_insertAll (t : MeasurementTable) {ms : List Measurement} {i : Nat}
    {m : Measurement} (hm : ms[i]? = some m) :
    (t.insertAll ms).1[i]? = some ((t.insertAll (ms.take i)).2.insert m).1 ∧
      (t.insertAll (ms.take (i + 1))).2 = ((t.insertAll (ms.take i)).2.insert m).2 := by
  obtain ⟨hi, rfl⟩ := List.getElem?_eq_some_iff.mp hm
  have hlength : (t.insertAll (ms.take i)).1.length = i := by
    rw [length_insertAll, List.length_take, Nat.min_eq_left (Nat.le_of_lt hi)]
  constructor
  · conv_lhs => rw [← List.take_append_drop i ms, List.drop_eq_getElem_cons hi]
    rw [insertAll_append, List.getElem?_append_right (Nat.le_of_eq hlength), hlength, Nat.sub_self]
    rfl
  · rw [List.take_succ_eq_append_getElem hi, insertAll_append]
    rfl

namespace Indexed

/-- After a history, the keys that were recorded are those that were recorded before it and those
that came in it. -/
theorem mem_keys_insertAll (h : t.Indexed) {ms : List Measurement} {key : MetricKey} :
    key ∈ (t.insertAll ms).2.keys ↔ key ∈ t.keys ∨ key ∈ ms.map Measurement.key := by
  induction ms generalizing t with
  | nil => simp
  | cons m rest ih =>
    rw [insertAll_cons, ih (h.insert m), List.map_cons, List.mem_cons]
    rcases h.insert_cases m with ⟨hold, heq⟩ | ⟨-, heq⟩
    · rw [heq]
      constructor
      · tauto
      · rintro (h | rfl | h) <;> tauto
    · rw [heq, keys_push_notePosition, List.mem_append, List.mem_singleton, or_assoc]

end Indexed

/-! ### Ledgers -/

/-- A ledger with the measurements of a table records a measurement that the table accepts, and
keeps the error of one that it refuses. -/
theorem Indexed.record_eq (h : t.Indexed) {l : Ledger}
    (hl : l.measurements.entries = t.entries.toList) (m : Measurement) :
    (l.record m).measurements.entries = (t.insert m).2.entries.toList ∧
      (l.record m).faults.map Except.error =
        l.faults.map Except.error ++ [(t.insert m).1].filter fun a ↦ !a.isOk := by
  have hkeys : l.keys = t.keys := congrArg (List.map Measurement.key) hl
  rcases h.insert_cases m with ⟨hold, heq⟩ | ⟨hnew, heq⟩
  · rcases l.record_cases m with ⟨-, hset, hfaults⟩ | ⟨hnew, -, -⟩
    · rw [heq, hset, hfaults]
      exact ⟨hl, by simp [Except.isOk, Except.toBool]⟩
    · exact absurd (hkeys ▸ hold) hnew
  · rcases l.record_cases m with ⟨hold, -, -⟩ | ⟨hnew', -, hfaults⟩
    · exact absurd (hkeys ▸ hold) hnew
    · rw [heq, hfaults, Ledger.entries_record_of_not_mem hnew', hl]
      simp [push, notePosition, Except.isOk, Except.toBool]

/-- A ledger holds what a table does that went through the same history, and its faults are the
errors with which measurements were refused. -/
theorem Indexed.recordAll_eq (h : t.Indexed) {l : Ledger}
    (hl : l.measurements.entries = t.entries.toList) (ms : List Measurement) :
    (l.recordAll ms).measurements.entries = (t.insertAll ms).2.entries.toList ∧
      (l.recordAll ms).faults.map Except.error =
        l.faults.map Except.error ++ (t.insertAll ms).1.filter fun a ↦ !a.isOk := by
  induction ms generalizing t l with
  | nil => simp [hl]
  | cons m rest ih =>
    obtain ⟨hentries, hfaults⟩ := h.record_eq hl m
    obtain ⟨hentries', hfaults'⟩ := ih (h.insert m) hentries
    refine ⟨hentries', hfaults'.trans ?_⟩
    rw [hfaults, List.append_assoc, ← List.filter_append]
    rfl

/-- A measurement is refused if its key came earlier, which changes nothing, and accepted if not. -/
theorem insertAll_cases {ms : List Measurement} {i : Nat} {m : Measurement}
    (hm : ms[i]? = some m) :
    (m.key ∈ (ms.take i).map Measurement.key ∧
        (empty.insertAll ms).1[i]? = some (.error (.writtenTwice m.key)) ∧
        (empty.insertAll (ms.take (i + 1))).2 = (empty.insertAll (ms.take i)).2) ∨
      (m.key ∉ (ms.take i).map Measurement.key ∧
        (empty.insertAll ms).1[i]? = some (.ok ())) := by
  have hkeys : m.key ∈ (empty.insertAll (ms.take i)).2.keys ↔
      m.key ∈ (ms.take i).map Measurement.key := by
    rw [indexed_empty.mem_keys_insertAll]
    simp [keys, empty]
  obtain ⟨hat, hafter⟩ := getElem?_insertAll empty hm
  rcases (indexed_empty.insertAll (ms.take i)).insert_cases m with ⟨hold, heq⟩ | ⟨hnew, heq⟩
  · rw [heq] at hat hafter
    exact .inl ⟨hkeys.mp hold, hat, hafter⟩
  · rw [heq] at hat
    exact .inr ⟨mt hkeys.mpr hnew, hat⟩

end MeasurementTable

/-- The ledger of a scan holds what a table does, and the same is found in both. -/
theorem Ledger.recordAll_eq_insertAll (ms : List Measurement) :
    let l := Ledger.empty.recordAll ms
    let answers := (MeasurementTable.empty.insertAll ms).1
    let t := (MeasurementTable.empty.insertAll ms).2
    l.measurements.entries = t.entries.toList ∧
      l.faults.map Except.error = answers.filter (fun a ↦ !a.isOk) ∧
      ∀ key, l.measurements.get? key = t.get? key ∧ l.measurements.value? key = t.value? key ∧
        l.measurements.contains key = t.contains key := by
  intro l answers t
  have hindexed := MeasurementTable.indexed_empty.insertAll ms
  have hempty : Ledger.empty.measurements.entries = MeasurementTable.empty.entries.toList := rfl
  obtain ⟨hentries, hfaults⟩ := MeasurementTable.indexed_empty.recordAll_eq hempty ms
  have hget (key : MetricKey) : l.measurements.get? key = t.get? key := by
    rw [hindexed.get?_eq_find?, ← hentries]
    rfl
  refine ⟨hentries, hfaults, fun key ↦ ⟨hget key, ?_, ?_⟩⟩
  · rw [MeasurementSet.value?, MeasurementTable.value?, hget]
  · rw [MeasurementSet.contains, hindexed.contains_eq_isSome_get?, hget]

/-- In a table that was empty, the first measurement of a key is accepted and every later one is
refused and changes nothing. -/
theorem MeasurementTable.keeps_first_writes (ms : List Measurement) :
    let answers := (empty.insertAll ms).1
    let t := (empty.insertAll ms).2
    answers.length = ms.length ∧
      (∀ i m, ms[i]? = some m →
        (answers[i]? = some (.ok ()) ↔ m.key ∉ (ms.take i).map Measurement.key)) ∧
      (∀ i m, ms[i]? = some m → answers[i]? ≠ some (.ok ()) →
        answers[i]? = some (.error (.writtenTwice m.key)) ∧
          (empty.insertAll (ms.take (i + 1))).2 = (empty.insertAll (ms.take i)).2) ∧
      t.entries.toList = accepted answers ms ∧ t.keys.Nodup ∧ t.Indexed ∧
      ∀ key, t.get? key = t.entries.toList.find? (fun m ↦ m.key = key) ∧
        t.get? key = ms.find? (fun m ↦ m.key = key) ∧
        (t.contains key = true ↔ key ∈ t.keys) ∧
        ∀ v, t.value? key = some v ↔
          ∃ m ∈ t.entries.toList, m.key = key ∧ m.reading = .measured v := by
  intro answers t
  have hindexed := indexed_empty.insertAll ms
  have hget (key : MetricKey) : t.get? key = ms.find? fun m ↦ m.key = key := by
    rw [← ((Ledger.recordAll_eq_insertAll ms).2.2 key).1, Ledger.get?_recordAll]
    rfl
  refine ⟨length_insertAll _ _, fun i m hm ↦ ?_, fun i m hm hrefused ↦ ?_,
    toList_entries_insertAll empty ms, hindexed.nodup_keys, hindexed, fun key ↦
      ⟨hindexed.get?_eq_find? key, hget key, hindexed.contains_iff, fun v ↦
        hindexed.value?_eq_some_iff⟩⟩
  · rcases insertAll_cases hm with ⟨hold, hat, -⟩ | ⟨hnew, hat⟩
    · rw [hat]
      exact iff_of_false (by simp) (not_not_intro hold)
    · rw [hat]
      exact iff_of_true rfl hnew
  · rcases insertAll_cases hm with ⟨-, hat, hsame⟩ | ⟨-, hat⟩
    · exact ⟨hat, hsame⟩
    · exact absurd hat hrefused

end DataQuality
