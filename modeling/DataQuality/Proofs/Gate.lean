import DataQuality.Proofs.Runs
import DataQuality.Proofs.TestDeclarations

/-!
# The gate

A scan that exits with zero vouches for its tests: each test that its configuration declares is in
the plan, and nothing came of it but passes. The verdict counts every result and every issue, and a
test that is lost on its way into the plan leaves an issue.
-/

namespace DataQuality

/-! ### Results of tests -/

namespace CompiledTest

variable {t : CompiledTest} {ms : MeasurementSet}

/-- Whatever came of a test carries its name. -/
theorem id_of_mem_evaluate {result : TestResult} (h : result ∈ t.evaluate ms) :
    result.id = t.id := by
  unfold evaluate at h
  split at h
  · unfold evaluateGroups at h
    split at h
    · obtain ⟨row, _, rfl⟩ := List.mem_map.mp h
      rfl
    all_goals
      rw [List.mem_singleton.mp h]
      rfl
  · rw [List.mem_singleton.mp h]
    rfl

/-- A test that is not judged row by row has a result. -/
theorem evaluate_ne_nil (h : t.grouped = none) : t.evaluate ms ≠ [] := by
  unfold evaluate
  rw [h]
  exact List.cons_ne_nil _ _

end CompiledTest

/-! ### Verdicts -/

namespace ScanResult

variable {r : ScanResult}

/-- No result of a test ended in a given way if none is counted. -/
theorem countTests_eq_zero_iff {outcome : TestOutcome} :
    r.countTests outcome = 0 ↔ ∀ result ∈ r.tests, result.outcome ≠ outcome := by
  simp [countTests, List.countP_eq_zero]

/-- A result with an issue is an error. -/
theorem issues_eq_nil_of_status (h : r.status ≠ .error) : r.issues = [] := by
  by_contra hissues
  apply h
  have hdefective : r.isDefective = true := by
    simp [isDefective, hissues]
  rw [status, if_pos hdefective]

/-- A result that has a failure, an error or an issue does not exit with zero. -/
theorem of_exitCode (h : r.summary.exitCode = 0) :
    r.issues = [] ∧ ∀ result ∈ r.tests, result.outcome = .passed := by
  unfold ScanSummary.exitCode at h
  split at h
  · cases h
  · next hsound =>
    rw [not_or, Nat.pos_iff_ne_zero, not_not] at hsound
    obtain ⟨hstatus, herrored⟩ := hsound
    split at h
    · cases h
    · next hfailed =>
      rw [Nat.pos_iff_ne_zero, not_not] at hfailed
      refine ⟨issues_eq_nil_of_status hstatus, ?_⟩
      intro result hresult
      cases houtcome : result.outcome with
      | passed => rfl
      | failed => exact absurd houtcome (countTests_eq_zero_iff.mp hfailed result hresult)
      | error => exact absurd houtcome (countTests_eq_zero_iff.mp herrored result hresult)

end ScanResult

/-! ### Reports -/

/-- The ways to a result of a scan of a table with some columns. A run whose queries were answered
in any other order is concluded like all others. -/
inductive Scan.Reports (scan : Scan) (columns : List TableColumn) (r : ScanResult) : Prop
  | found {s : Session} : scan.columnsOf (s.answer scan.asked scan.columnsQuery) = .ok columns →
      (scan.run s).2 = .ok r → scan.Reports columns r
  | given {s : Session} : (scan.runGiven s columns).2 = .ok r → scan.Reports columns r
  | concluded {p : Plan} {run : Run} {asked : List String} : scan.plan columns = .ok p →
      (Scan.conclude { scan with stage := .executing, asked } p run).2 = .ok r →
      scan.Reports columns r

namespace Scan

variable {scan : Scan} {columns : List TableColumn} {r : ScanResult}

/-- A result of a scan with columns reports on a run of their plan. -/
theorem of_runColumns {s : Session} (h : (scan.runColumns s columns).2 = .ok r) :
    ∃ p run ledger, scan.plan columns = .ok p ∧ r = scan.report p run ledger := by
  unfold runColumns at h
  cases hplan : scan.plan columns with
  | error e =>
    rw [hplan] at h
    cases h
  | ok p =>
    rw [hplan] at h
    exact ⟨p, _, _, rfl, (of_execute h).2⟩

/-- Whichever way it came about, a result reports on a run of the plan for the columns. -/
theorem Reports.exists_plan (h : scan.Reports columns r) :
    ∃ p run ledger, scan.plan columns = .ok p ∧ r = scan.report p run ledger := by
  cases h with
  | @found s hcolumns hrun =>
    unfold run at hrun
    split at hrun
    · cases hrun
    · simp only [hcolumns] at hrun
      -- That the columns were asked for shows in no plan and no report.
      have hdiscovered := of_runColumns hrun
      exact hdiscovered
  | @given s hrun =>
    unfold runGiven at hrun
    split at hrun
    · cases hrun
    · split at hrun
      · cases hrun
      · exact of_runColumns hrun
  | @concluded p run asked hplan hdone =>
    exact ⟨p, run, _, hplan, (of_conclude hdone).2⟩

/-- If a scan exits with zero, every test that its configuration declares was compiled, all of its
results are reported and passed, and there is one unless the test is judged row by row. -/
theorem tests_passed_of_exitCode (hkeys : ∀ key ∈ scan.config.columns.keys, Text.lower key = key)
    (h : scan.Reports columns r) (hexit : r.summary.exitCode = 0) :
    ∃ (p : Plan) (ms : MeasurementSet), scan.plan columns = .ok p ∧
      r.measurements = ms.entries.filter (fun m ↦ !m.internal) ∧
      r.tests = p.tests.flatMap (fun t ↦ t.evaluate ms) ∧
      ∀ d ∈ scan.config.testDeclarations, ∃ t ∈ p.tests, t.StandsFor d ∧
        (∀ result ∈ t.evaluate ms, result ∈ r.tests ∧ result.id = d.id ∧
          result.outcome = .passed) ∧
        (d.grouped = false → t.evaluate ms ≠ []) := by
  obtain ⟨p, run, ledger, hplan, rfl⟩ := h.exists_plan
  obtain ⟨hissues, hpassed⟩ := ScanResult.of_exitCode hexit
  refine ⟨p, ledger.measurements, hplan, rfl, rfl, ?_⟩
  intro d hd
  obtain ⟨hunknown, source, _, rfl⟩ :=
    ScanConfiguration.plan_eq_ok_iff.mp (plan_eq_ok_iff.mp hplan).2
  obtain ⟨t, ht, hstands⟩ := Draft.exists_test_of_issues hunknown hkeys hissues hd
  refine ⟨t, ht, hstands, ?_, ?_⟩
  · intro result hresult
    have hreported : result ∈ (scan.report (Draft.plan _) run ledger).tests :=
      List.mem_flatMap.mpr ⟨t, ht, hresult⟩
    refine ⟨hreported, ?_, hpassed result hreported⟩
    rw [CompiledTest.id_of_mem_evaluate hresult, hstands.id]
  · intro hplain
    apply CompiledTest.evaluate_ne_nil
    have hgrouped := hstands.grouped.trans hplain
    simpa using hgrouped

end Scan

/-- The settings of a column with a tested custom query. -/
def statusSettings : ColumnSettings :=
  { ColumnSettings.empty with
    tests := ["label == 'open'"]
    sqlMetrics := [{ SqlMetric.numeric "SELECT 'open'" with name := some "label" }] }

/-- A scan of a table of orders that tests a custom query of a column from two places. -/
def statusScan : Scan :=
  .ofConfiguration .postgreSQL
    { ScanConfiguration.ofTable "orders" with
      tests := ["status.label != 'closed'"]
      columns := Dict.ofList [("status", statusSettings)] }

/-- The only column of the table of orders, in capital letters. -/
def statusColumn : TableColumn := ⟨"STATUS", "text", false⟩

/-- What the queries of the scan read. -/
def statusSource : QuerySource := .withFilter (statusScan.dialect.qualifyTable "orders") none

/-- The plan of the scan. -/
def statusPlan : Plan :=
  assemblePlan 0 statusScan.config [statusColumn] statusSource ⟨[], []⟩
    [⟨.ofColumn .postgreSQL statusColumn (some statusSettings), ⟨[], []⟩, [], [], [],
      [⟨.ofColumn "orders" "status", statusSettings.tests⟩],
      declareMetrics (some "status") 0 statusSettings.sqlMetrics⟩]

/-- A session in which every query is answered with the text that the tests want. -/
def statusSession : Session := ⟨fun _ _ ↦ .ok ⟨["label"], [[.text "open"]]⟩, none⟩

private theorem plan_statusScan : statusScan.plan [statusColumn] = .ok statusPlan := by
  have hlower : Text.lower statusColumn.name = "status" := by decide
  have hsettings : statusScan.config.column? statusColumn.name = some statusSettings := by
    rw [ScanConfiguration.column?, hlower]
    rfl
  have hcolumn := @planColumn_of_settings .postgreSQL _ statusSource _ _ hsettings rfl rfl
  rw [hlower] at hcolumn
  refine Scan.plan_eq_ok_iff.mpr ⟨by decide, ?_⟩
  refine ScanConfiguration.plan_eq_ok_iff.mpr ⟨by decide, _, rfl, ?_⟩
  have hplan := congrArg
    (fun c ↦ assemblePlan 0 statusScan.config [statusColumn] statusSource ⟨[], []⟩ [c]) hcolumn
  exact hplan.symm

/-- The scan of the table of orders exits with zero, and both of its tests passed. -/
theorem statusScan_tests_passed_of_exitCode :
    (∀ key ∈ statusScan.config.columns.keys, Text.lower key = key) ∧
      ∃ r, statusScan.Reports [statusColumn] r ∧ r.summary.exitCode = 0 ∧
        ∃ (p : Plan) (ms : MeasurementSet), statusScan.plan [statusColumn] = .ok p ∧
          r.measurements = ms.entries.filter (fun m ↦ !m.internal) ∧
          r.tests = p.tests.flatMap (fun t ↦ t.evaluate ms) ∧
          ∀ d ∈ statusScan.config.testDeclarations, ∃ t ∈ p.tests, t.StandsFor d ∧
            (∀ result ∈ t.evaluate ms, result ∈ r.tests ∧ result.id = d.id ∧
              result.outcome = .passed) ∧
            (d.grouped = false → t.evaluate ms ≠ []) := by
  have hkeys : ∀ key ∈ statusScan.config.columns.keys, Text.lower key = key := by decide +kernel
  obtain ⟨r, hresult⟩ : ∃ r, (statusScan.execute statusSession statusPlan).2 = .ok r :=
    Scan.exists_result (by rintro _ _ _ ⟨⟩) rfl
  have hexit : r.summary.exitCode = 0 := by
    rw [(Scan.of_execute hresult).2]
    decide +kernel
  have hreports : statusScan.Reports [statusColumn] r := by
    refine @Scan.Reports.given _ _ _ statusSession ?_
    show (statusScan.runColumns statusSession [statusColumn]).2 = .ok r
    rw [Scan.runColumns, plan_statusScan]
    exact hresult
  exact ⟨hkeys, r, hreports, hexit, Scan.tests_passed_of_exitCode hkeys hreports hexit⟩

end DataQuality
