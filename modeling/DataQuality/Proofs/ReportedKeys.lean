import DataQuality.Proofs.Drafts
import DataQuality.Proofs.Runs

/-!
# Reported keys

A scan reports on the same keys in the same order however its queries end: on the columns of the
table, on what the groups bind and on what is derived, each key where it is written first. Whatever
becomes of a group, and in whichever order the groups of a phase are answered, it leaves one
measurement for each of its bindings.
-/

namespace DataQuality

/-! ### Entries -/

/-- The key of a measurement, with whether it is internal. -/
def Measurement.entry (m : Measurement) : MetricKey × Bool := (m.key, m.internal)

/-- The first of the entries of each key. -/
def firstEntries : List (MetricKey × Bool) → List (MetricKey × Bool)
  | [] => []
  | e :: rest => e :: (firstEntries rest).filter fun f ↦ f.1 ≠ e.1

namespace Ledger

/-- Of the measurements that are recorded, the first of each key stay, unless the key was recorded
before. -/
theorem map_entry_recordAll (l : Ledger) (ms : List Measurement) :
    (l.recordAll ms).measurements.entries.map Measurement.entry =
      l.measurements.entries.map Measurement.entry ++
        (firstEntries (ms.map Measurement.entry)).filter fun e ↦ e.1 ∉ l.keys := by
  induction ms generalizing l with
  | nil => simp [firstEntries]
  | cons m rest ih =>
    change ((l.record m).recordAll rest).measurements.entries.map Measurement.entry = _
    rw [ih, List.map_cons, firstEntries]
    rcases l.record_cases m with ⟨hknown, hsame, _⟩ | ⟨hnew, _, _⟩
    · have hkeys : (l.record m).keys = l.keys := by rw [keys, hsame, keys]
      rw [hsame, hkeys, List.filter_cons_of_neg (by simp [Measurement.entry, hknown]),
        List.filter_filter]
      congr 1
      refine List.filter_congr fun e _ ↦ ?_
      by_cases he : e.1 = m.key <;> simp [he, hknown, Measurement.entry]
    · have hentries := entries_record_of_not_mem hnew
      have hkeys : (l.record m).keys = l.keys ++ [m.key] := by
        rw [keys, hentries, List.map_append, List.map_singleton, keys]
      rw [hentries, hkeys, List.filter_cons_of_pos (by simp [Measurement.entry, hnew]),
        List.filter_filter, List.map_append, List.append_assoc, List.map_singleton,
        List.singleton_append]
      congr 2
      refine List.filter_congr fun e _ ↦ ?_
      by_cases he : e.1 = m.key <;> simp [he, Measurement.entry]

/-- A measurement that is recorded is an entry or a fault. -/
theorem length_recordAll (l : Ledger) (ms : List Measurement) :
    (l.recordAll ms).faults.length + (l.recordAll ms).measurements.entries.length =
      l.faults.length + l.measurements.entries.length + ms.length := by
  induction ms generalizing l with
  | nil => rfl
  | cons m rest ih =>
    change ((l.record m).recordAll rest).faults.length +
      ((l.record m).recordAll rest).measurements.entries.length = _
    rw [ih, List.length_cons]
    rcases l.record_cases m with ⟨_, hsame, hfaults⟩ | ⟨hnew, _, hfaults⟩
    · rw [hsame, hfaults, List.length_append, List.length_singleton]
      omega
    · rw [entries_record_of_not_mem hnew, hfaults, List.length_append, List.length_singleton]
      omega

/-- Derived metrics are recorded under their keys and with their flags. -/
theorem map_entry_derivations (l : Ledger) (ds : List DerivedMetric) :
    (l.derivations ds).map Measurement.entry = ds.map fun d ↦ (d.key, d.internal) := by
  induction ds generalizing l with
  | nil => rfl
  | cons d rest ih =>
    rw [derivations, List.map_cons, ih, List.map_cons]
    rfl

end Ledger

/-! ### Turns in any order -/

/-- A turn of a group after the measurements of earlier phases: it was skipped because the user had
cancelled, or it ran against a warehouse that may answer anything. -/
inductive QueryGroup.TakesTurn (w : Warehouse) (measured : MeasurementSet) (g : QueryGroup) :
    Turn → Prop
  | skipped : TakesTurn w measured g ⟨g.skip Session.cancelledReason, true⟩
  | ran (answer : String → Except ScanError Rows) :
    TakesTurn w measured g ⟨g.run w answer measured, false⟩

namespace QueryGroup.TakesTurn

variable {w : Warehouse} {measured : MeasurementSet} {g : QueryGroup} {t : Turn}

/-- A turn leaves one measurement for each binding of its group, in order. -/
theorem map_entry (h : g.TakesTurn w measured t) :
    t.outcome.measurements.map Measurement.entry = g.entries := by
  obtain ⟨reading, hms⟩ : ∃ reading : Binding → Reading,
      t.outcome.measurements = g.bindings.map fun b ↦ ⟨b.key, reading b, b.internal⟩ := by
    cases h with
    | skipped => exact ⟨fun _ ↦ .skipped Session.cancelledReason, rfl⟩
    | ran answer => exact g.measurements_run w answer measured
  rw [hms, List.map_map]
  rfl

/-- A turn is that of its group. -/
theorem id (h : g.TakesTurn w measured t) : t.outcome.id = g.id := by
  cases h with
  | skipped => rfl
  | ran answer => exact g.id_run w answer measured

/-- The turns of a session are turns of its groups. -/
theorem of_session (s : Session) (asked : List String) :
    g.TakesTurn w measured (s.turn w measured asked g) := by
  unfold Session.turn
  split
  · exact .skipped
  · exact .ran (s.answer asked)

/-- When groups take their turns, each of their bindings is measured, in order. -/
theorem map_entry_flatMap {gs : List QueryGroup} {ts : List Turn}
    (h : List.Forall₂ (TakesTurn w measured) gs ts) :
    (ts.flatMap fun t ↦ t.outcome.measurements).map Measurement.entry =
      gs.flatMap fun g ↦ g.entries := by
  induction h with
  | nil => rfl
  | cons hg _ ih => rw [List.flatMap_cons, List.flatMap_cons, List.map_append, ih, hg.map_entry]

/-- A session gives each group its turn. -/
theorem forall₂_allTurns (s : Session) (asked : List String) (gs : List QueryGroup) :
    List.Forall₂ (TakesTurn w measured) gs (s.allTurns w measured asked gs) := by
  induction gs generalizing asked with
  | nil => exact .nil
  | cons g rest ih => exact .cons (of_session s asked) (ih _)

end QueryGroup.TakesTurn

/-- A run that gives every group of the phases its turn, one phase after the other. Within a phase
the queries may be asked side by side and answered in any order. -/
inductive Run.Completes (w : Warehouse) (p : Plan) : Run → List Phase → Run → Prop
  | done (r : Run) : Completes w p r [] r
  | phase {r last : Run} {phase : Phase} {rest : List Phase} {ts : List Turn}
      (turns : List.Forall₂ (QueryGroup.TakesTurn w r.ledger.measurements) (p.groupsIn phase) ts)
      (later : Completes w p (r.take ts) rest last) : Completes w p r (phase :: rest) last

namespace Run.Completes

variable {w : Warehouse} {p : Plan} {r last : Run} {phases : List Phase}

/-- One query after the other, every group has its turn too. -/
theorem of_takePhases (s : Session) (r : Run) (phases : List Phase) :
    Completes w p r phases (r.takePhases s w p phases) := by
  induction phases generalizing r with
  | nil => exact .done r
  | cons phase rest ih =>
    exact .phase (QueryGroup.TakesTurn.forall₂_allTurns s r.asked _)
      (ih (r.takeAll s w (p.groupsIn phase)))

/-- The turns that a run adds are those of the groups of its phases, in order. -/
theorem exists_turns (h : Completes w p r phases last) :
    ∃ ts, last = r.take ts ∧
      List.Forall₂ (fun g t ↦ ∃ measured, g.TakesTurn w measured t) (phases.flatMap p.groupsIn)
        ts := by
  induction h with
  | done r => exact ⟨[], r.take_nil.symm, .nil⟩
  | @phase r last phase rest ts turns _ ih =>
    obtain ⟨us, rfl, hlater⟩ := ih
    exact ⟨ts ++ us, take_take r ts us,
      List.rel_append (turns.imp fun _ _ hturn ↦ ⟨_, hturn⟩) hlater⟩

/-- What is recorded on the way are the bindings of the groups, phase by phase. -/
theorem exists_recordAll (h : Completes w p r phases last) :
    ∃ ms, last.ledger = r.ledger.recordAll ms ∧
      ms.map Measurement.entry = (phases.flatMap p.groupsIn).flatMap fun g ↦ g.entries := by
  induction h with
  | done r => exact ⟨[], rfl, rfl⟩
  | @phase r last phase rest ts turns _ ih =>
    obtain ⟨ms, hledger, hentries⟩ := ih
    refine ⟨(ts.flatMap fun t ↦ t.outcome.measurements) ++ ms, ?_, ?_⟩
    · rw [hledger, Ledger.recordAll_append]
      rfl
    · rw [List.map_append, QueryGroup.TakesTurn.map_entry_flatMap turns, hentries,
        List.flatMap_cons, List.flatMap_append]

/-- A condition that the turns of all groups keep to is met by everything that a run records. -/
theorem all {P : Reading → Prop} (h : Completes w p r phases last) (hr : r.ledger.All P)
    (hturn : ∀ g ∈ p.groups, ∀ measured t, g.TakesTurn w measured t →
      ∀ m ∈ t.outcome.measurements, P m.reading) : last.ledger.All P := by
  induction h with
  | done r => exact hr
  | @phase r last phase rest ts turns _ ih =>
    refine ih (hr.recordAll fun m hm ↦ ?_)
    obtain ⟨t, ht, hm⟩ := List.mem_flatMap.mp hm
    obtain ⟨g, hg, htakes⟩ := exists_of_mem_right turns ht
    exact hturn g (Plan.mem_groupsIn_iff.mp hg).1 _ t htakes m hm

end Run.Completes

/-! ### Reports -/

/-- What a scan writes for a plan: the columns of the table, then each binding of each group phase
by phase, then what is derived. -/
def Plan.written (p : Plan) : List (MetricKey × Bool) :=
  (.ofTable schemaMetric, false) :: (Phase.all.flatMap p.groupsIn).flatMap (fun g ↦ g.entries) ++
    p.derived.map fun d ↦ (d.key, d.internal)

/-- Each group of a plan belongs to one phase. -/
theorem Plan.flatMap_groupsIn_perm (p : Plan) : (Phase.all.flatMap p.groupsIn).Perm p.groups := by
  unfold groupsIn
  induction p.groups with
  | nil => rfl
  | cons g rest ih =>
    simp only [Phase.all, List.flatMap_cons, List.flatMap_nil, List.append_nil,
      List.filter_cons] at ih ⊢
    cases g.phase with
    | aggregate => exact ih.cons g
    | distribution => exact List.perm_middle.trans (ih.cons g)
    | custom =>
      refine .trans ?_ (ih.cons g)
      simp only [← List.append_assoc]
      exact List.perm_middle

namespace Scan

/-- When a scan begins, only the columns of the table are recorded. -/
theorem all_begun {P : Reading → Prop} {p : Plan} (scan : Scan)
    (h : P (.measured (.schema p.columns))) : (scan.begun p).ledger.All P := by
  refine Ledger.All.recordAll (fun m hm ↦ by cases hm) ?_
  intro m hm
  obtain rfl := List.mem_singleton.mp hm
  exact h

/-- The ways to a result for a plan: the queries are asked one after the other in a session, or side
by side against a warehouse that may answer anything. -/
inductive ReportsOn (scan : Scan) (p : Plan) (result : ScanResult) : Prop
  | sequential (s : Session) (h : (scan.execute s p).2 = .ok result)
  | interleaved (r : Run)
      (run : Run.Completes scan.dialect p (scan.begun p) Phase.all r)
      (h : (({ scan with stage := .executing, asked := r.asked } : Scan).conclude p r).2 =
        .ok result)

/-- A result reports on a run of the plan in which every group had its turn and the connection was
kept. -/
structure ReportsRun (scan : Scan) (p : Plan) (r : Run) (result : ScanResult) : Prop where
  run : Run.Completes scan.dialect p (scan.begun p) Phase.all r
  kept : r.lost? = none
  result : result = scan.report p r (r.ledger.derive p.derived)

variable {scan : Scan} {p : Plan} {result : ScanResult}

/-- The results for a plan are the reports on its runs. -/
theorem reportsOn_iff : scan.ReportsOn p result ↔ ∃ r, scan.ReportsRun p r result := by
  constructor
  · rintro (⟨s, h⟩ | ⟨r, run, h⟩)
    · obtain ⟨hlost, rfl⟩ := of_execute h
      refine ⟨_, ?_, hlost, rfl⟩
      rw [runPlan_of_lost? hlost]
      exact .of_takePhases s _ Phase.all
    · exact ⟨r, run, (of_conclude h).1, (of_conclude h).2⟩
  · rintro ⟨r, run, hkept, rfl⟩
    refine .interleaved r run ?_
    unfold conclude
    rw [hkept]
    rfl

/-- A result reports on a run in which every group had its turn. -/
theorem ReportsOn.exists_report (h : scan.ReportsOn p result) :
    ∃ r, Run.Completes scan.dialect p (scan.begun p) Phase.all r ∧
      result = scan.report p r (r.ledger.derive p.derived) := by
  obtain ⟨r, hreports⟩ := reportsOn_iff.mp h
  exact ⟨r, hreports.run, hreports.result⟩

/-- What such a result lists is what the run recorded and what was derived from it. -/
theorem ReportsOn.exists_run (h : scan.ReportsOn p result) :
    ∃ r, Run.Completes scan.dialect p (scan.begun p) Phase.all r ∧
      result.measurements = (r.ledger.derive p.derived).measurements.entries.filter
        (fun m ↦ !m.internal) ∧
      result.faults.length = (r.ledger.derive p.derived).faults.length := by
  obtain ⟨r, run, rfl⟩ := h.exists_report
  exact ⟨r, run, rfl, List.length_map _⟩

/-- A result lists the first entries of what its plan writes, without the internal ones, and has one
fault for each entry that comes again. -/
theorem ReportsOn.map_key (h : scan.ReportsOn p result) :
    result.measurements.map Measurement.key =
        ((firstEntries p.written).filter fun e ↦ !e.2).map Prod.fst ∧
      result.faults.length + (firstEntries p.written).length = p.written.length := by
  obtain ⟨r, run, hmeasurements, hfaults⟩ := h.exists_run
  obtain ⟨ms, hledger, hms⟩ := run.exists_recordAll
  let start : Measurement := ⟨.ofTable schemaMetric, .measured (.schema p.columns), false⟩
  let all := start :: ms ++ r.ledger.derivations p.derived
  have hall : all.map Measurement.entry = p.written := by
    rw [List.map_append, List.map_cons, hms, Ledger.map_entry_derivations]
    rfl
  have hrecorded : r.ledger.derive p.derived = Ledger.empty.recordAll all := by
    rw [Ledger.derive_eq_recordAll, Ledger.recordAll_append, hledger]
    rfl
  have hentries : (r.ledger.derive p.derived).measurements.entries.map Measurement.entry =
      firstEntries p.written := by
    rw [hrecorded, Ledger.map_entry_recordAll, hall]
    simp [Ledger.empty, Ledger.keys, MeasurementSet.empty]
  constructor
  · rw [hmeasurements, ← hentries, List.filter_map, List.map_map]
    rfl
  · have hlength := Ledger.length_recordAll Ledger.empty all
    rw [← hrecorded, ← List.length_map Measurement.entry, hentries] at hlength
    rw [hfaults, hlength, ← hall, List.length_map]
    simp [Ledger.empty, MeasurementSet.empty]

/-- However queries end, two results for a plan list the same keys in the same order: the columns of
the table first, then each binding of each group in the order of the phases, then what is derived,
each key where it is written first and without internal ones. A key that is written again is a fault
and nothing else. Each group comes once, and a plan that is made from a configuration has its groups
in the order of the phases. -/
theorem reports_same_keys {scan scan' : Scan} {p : Plan} {result result' : ScanResult}
    (h : scan.ReportsOn p result) (h' : scan'.ReportsOn p result') :
    result.measurements.map Measurement.key = result'.measurements.map Measurement.key ∧
      result.measurements.map Measurement.key =
        ((firstEntries p.written).filter fun e ↦ !e.2).map Prod.fst ∧
      result.faults.length = result'.faults.length ∧
      result.faults.length + (firstEntries p.written).length = p.written.length ∧
      (Phase.all.flatMap p.groupsIn).Perm p.groups ∧
      ∀ columns, scan.plan columns = .ok p → Phase.all.flatMap p.groupsIn = p.groups := by
  obtain ⟨hkeys, hfaults⟩ := h.map_key
  obtain ⟨hkeys', hfaults'⟩ := h'.map_key
  refine ⟨hkeys.trans hkeys'.symm, hkeys, by omega, hfaults, p.flatMap_groupsIn_perm, ?_⟩
  intro columns hplan
  obtain ⟨_, hconfig⟩ := plan_eq_ok_iff.mp hplan
  obtain ⟨_, source, _, rfl⟩ := ScanConfiguration.plan_eq_ok_iff.mp hconfig
  exact Draft.flatMap_groupsIn _

end Scan

/-- A plan that writes the number of rows twice and counts the different values of a column for
another metric only. -/
def overlappingPlan : Plan where
  table := "orders"
  columns := []
  requests := []
  groups := numberGroups 0
    [⟨.custom, "daily", .sql "SELECT 2", .singleRow,
        [⟨.ofTable "row_count", "n", some 0, false⟩, ⟨.ofTable "daily", "d", some 1, false⟩]⟩,
      ⟨.aggregate, "counts", .sql "SELECT 1", .singleRow,
        [⟨.ofTable "row_count", "n", some 0, false⟩, ⟨.ofColumn "id" "distinct", "d", none, true⟩]⟩]
  derived := [⟨.ofColumn "id" "uniqueness", .uniqueness, false⟩]
  tests := []
  issues := []

/-- Whether all queries are answered or the first fails and the user cancels after it, four keys are
reported, and the number of rows is a fault the second time. -/
theorem overlappingPlan_reports_same_keys :
    let scan := Scan.ofConfiguration .postgreSQL (.ofTable "orders")
    let keys : List MetricKey :=
      [.ofTable schemaMetric, .ofTable "row_count", .ofTable "daily", .ofColumn "id" "uniqueness"]
    ∃ result result', scan.ReportsOn overlappingPlan result ∧
      scan.ReportsOn overlappingPlan result' ∧ result'.cancelled = true ∧
      result.measurements.map Measurement.key = keys ∧
      result'.measurements.map Measurement.key = keys ∧
      result.faults.length = 1 ∧ result'.faults.length = 1 := by
  intro scan keys
  let answering : Session := ⟨fun _ _ ↦ .ok ⟨["n", "d"], [[.int 3, .int 2]]⟩, none⟩
  let failing : Session := ⟨fun _ _ ↦ .error (.queryExecution "no such column"), some 1⟩
  obtain ⟨result, hresult⟩ := @Scan.exists_result answering scan overlappingPlan
    (fun _ _ _ h ↦ by cases h) rfl
  obtain ⟨result', hresult'⟩ := @Scan.exists_result failing scan overlappingPlan
    (fun _ _ _ h ↦ by cases h; rfl) rfl
  have hreports : scan.ReportsOn overlappingPlan result := .sequential answering hresult
  have hreports' : scan.ReportsOn overlappingPlan result' := .sequential failing hresult'
  obtain ⟨hsame, hkeys, hfaults, hcount, _, _⟩ := Scan.reports_same_keys hreports hreports'
  have hlisted : ((firstEntries overlappingPlan.written).filter fun e ↦ !e.2).map Prod.fst =
      keys := by decide
  have hlengths : overlappingPlan.written.length =
      (firstEntries overlappingPlan.written).length + 1 := by decide
  have hcancelled : result'.cancelled = true := by
    obtain ⟨_, rfl⟩ := Scan.of_execute hresult'
    rfl
  refine ⟨result, result', hreports, hreports', hcancelled, hkeys.trans hlisted, ?_, ?_, ?_⟩
  · rw [← hsame, hkeys, hlisted]
  · omega
  · omega

end DataQuality
