import DataQuality.Proofs.CustomReports
import DataQuality.Proofs.BoundTests
import DataQuality.Proofs.GroupRows
import DataQuality.Proofs.ImpliedTests
import DataQuality.Proofs.MeasuredFirst

/-!
# Grouped tests

A grouped test is judged on the rows of one custom query. If nothing else writes the key of the
query, the result of a scan has one result of the test for each row that the query came back with,
in order, and each depends on its own row only. If the query did not come back, or its rows lack a
group field, there is one result, which is an error.
-/

namespace DataQuality

/-! ### Judging rows -/

namespace CompiledTest

variable {t : CompiledTest} {ms : MeasurementSet} {key : MetricKey} {m : Measurement}

/-- The result of a grouped test for one row. -/
def judge (t : CompiledTest) (row : GroupRow Value) : TestResult :=
  t.resultOf (t.expression.identifiers.map (BoundName.ofRow row)) (some row.group)

/-- Measured rows are judged one by one. -/
theorem evaluate_of_groups (hgrouped : t.grouped = some key) (hget : ms.get? key = some m)
    {rows : List (GroupRow Value)} (hreading : m.reading = .measured (.groups rows)) :
    t.evaluate ms = rows.map t.judge := by
  unfold evaluate evaluateGroups
  rw [hgrouped]
  dsimp only
  rw [hget, Option.map_some, hreading]
  rfl

/-- Where there is no value, a grouped test is refused. -/
theorem exists_evaluate_eq_refuse (hgrouped : t.grouped = some key) (hget : ms.get? key = some m)
    (hreading : m.reading.value? = none) : ∃ e, t.evaluate ms = [t.refuse e] := by
  unfold evaluate evaluateGroups
  rw [hgrouped]
  dsimp only
  rw [hget, Option.map_some]
  cases hr : m.reading with
  | measured v =>
    rw [hr] at hreading
    cases hreading
  | failed reason => exact ⟨_, rfl⟩
  | skipped reason => exact ⟨_, rfl⟩

end CompiledTest

/-! ### The query of a grouped test -/

/-- In the plan of a configuration, a custom query with group fields has its rows under a key. -/
structure ScanConfiguration.GroupsRows (config : ScanConfiguration) (columns : List TableColumn)
    (p : Plan) (m : DeclaredMetric) (fields : List String) (key : MetricKey) (g : QueryGroup) :
    Prop where
  declared : m ∈ config.customQueries columns
  groupFields : m.metric.groupFields = some fields
  group : g ∈ p.groups
  phase : g.phase = .custom
  label : g.label = m.label
  query : g.query = .sql m.metric.sql
  shape : g.shape = .groups fields
  mem_keys : key ∈ g.keys

/-- A query whose tests are judged by rows has group fields. -/
theorem DeclaredMetric.shape_of_grouped {m : DeclaredMetric} {f : CustomForm} {key : MetricKey}
    (h : m.form? = some f) (hgrouped : f.grouped = some key) :
    ∃ fields, m.metric.groupFields = some fields ∧ f.shape = .groups fields := by
  rcases form?_cases h with ⟨name, -, -, rfl⟩ | ⟨name, fields, -, hfields, -, rfl⟩ | ⟨-, -, rfl⟩
  · cases hgrouped
  · exact ⟨fields, hfields, rfl⟩
  · cases hgrouped

/-- A query that is planned with tests of its rows binds the rows. -/
theorem DeclaredMetric.exists_group_of_grouped {m : DeclaredMetric} {table : String}
    {others : List MetricKey} {b : DeclaredTests} (h : (m.plan table others).tests = some b)
    {key : MetricKey} (hgrouped : b.scope.grouped = some key) :
    ∃ fields spec, m.metric.groupFields = some fields ∧ (m.plan table others).group = some spec ∧
      spec.label = m.label ∧ spec.query = .sql m.metric.sql ∧ spec.shape = .groups fields ∧
      key ∈ spec.keys := by
  have hkey := (scope_of_plan h).2 key hgrouped
  obtain ⟨f, bindings, hf, -, -, hgroup, rfl⟩ := exists_form_of_plan h
  obtain ⟨fields, hfields, hshape⟩ := shape_of_grouped hf hgrouped
  rw [CustomPlan.keys, hgroup] at hkey
  exact ⟨fields, _, hfields, hgroup, rfl, rfl, hshape, by simpa using hkey⟩

/-- Whatever judges rows in the plan of a configuration judges those of a custom query. -/
theorem Draft.exists_groupsRows {d : Draft} {t : CompiledTest} (ht : t ∈ d.plan.tests)
    {key : MetricKey} (hgrouped : t.grouped = some key) :
    ∃ m fields g, d.config.GroupsRows d.columns d.plan m fields key g := by
  obtain ⟨b, hb, index, source, hone⟩ := exists_compileOne_of_mem ht
  rw [(TestScope.grouped_of_compileOne hone).1] at hgrouped
  -- Tests of the table and of its columns are judged once.
  rcases mem_tests_cases hb with rfl | ⟨c, -, settings, -, rfl⟩ | ⟨m, hm, others, hplan, htests⟩
  · cases hgrouped
  · cases hgrouped
  · obtain ⟨fields, spec, hfields, hgroup, hlabel, hquery, hshape, hkey⟩ :=
      m.exists_group_of_grouped htests hgrouped
    have hspec : spec ∈ d.customGroups :=
      List.mem_flatMap.mpr ⟨_, hplan, Option.mem_toList.mpr hgroup⟩
    obtain ⟨g, hg, rfl⟩ := exists_mem_numberGroups 0 (List.mem_append_right d.catalogGroups hspec)
    rw [d.declared_eq] at hm
    exact ⟨m, fields, g, hm, hfields, hg, (phase_of_mem_customGroups hspec).1, hlabel, hquery,
      hshape, hkey⟩

/-! ### Keys that are written once -/

/-- A key of a custom query that nothing else writes is neither the number of rows nor the columns
of the table. -/
theorem Draft.ne_of_count_written {d : Draft} {g : QueryGroup} (hg : g ∈ d.plan.groups)
    (hphase : g.phase = .custom) {key : MetricKey} (hkey : key ∈ g.keys)
    (honce : (d.plan.written.map Prod.fst).count key = 1) :
    key ≠ .ofTable Metric.rowCount.name ∧ key ≠ .ofTable schemaMetric := by
  have hwritten : d.plan.written.map Prod.fst =
      [.ofTable schemaMetric] ++ (d.plan.groups.flatMap fun g ↦ g.keys) ++
        d.plan.derived.map DerivedMetric.key := by
    unfold Plan.written
    rw [d.flatMap_groupsIn, List.cons_append, List.map_cons, List.map_append, List.map_flatMap,
      List.map_map]
    simp only [GroupSpec.map_fst_entries]
    rfl
  rw [hwritten, List.count_append, List.count_append] at honce
  constructor
  · rintro rfl
    have hrequested : .ofTable Metric.rowCount.name ∈ d.requests.map MetricRequest.key :=
      mem_keys_requests.mpr (.inr (exists_custom_group_iff.mp ⟨g, hg, hphase, hkey⟩))
    obtain ⟨h, hh, hfirst, hbound⟩ := exists_aggregate_group_of_rowCount hrequested
    have hne : g ≠ h := by
      rintro rfl
      rw [hphase] at hfirst
      cases hfirst
    have hmany := one_lt_count_flatMap (f := fun g ↦ g.keys) hg hh hne hkey hbound
    omega
  · rintro rfl
    have hgroups : 0 < (d.plan.groups.flatMap fun g ↦ g.keys).count (.ofTable schemaMetric) :=
      List.count_pos_iff.mpr (List.mem_flatMap.mpr ⟨g, hg, hkey⟩)
    have hfirst : [MetricKey.ofTable schemaMetric].count (.ofTable schemaMetric) = 1 := by decide
    omega

/-! ### What comes of the rows -/

/-- What comes of rows that are grouped by fields. -/
def Rows.groupsReading (rows : Rows) (fields : List String) : Reading :=
  match rows.groupRows fields with
  | .ok groups => .measured (.groups groups)
  | .error message => .failed message

/-- A group that reads rows of groups measures the same for all of its bindings. -/
theorem GroupSpec.measure_groups {g : GroupSpec} {fields : List String}
    (h : g.shape = .groups fields) (rows : Rows) (range : Option BucketRange) :
    g.measure rows range = Binding.all g.bindings (rows.groupsReading fields) := by
  unfold measure Binding.all Binding.measure Rows.read Rows.groupsReading
  rw [h]
  refine List.map_congr_left fun b _ ↦ ?_
  dsimp only
  cases rows.groupRows fields <;> rfl

/-- Of measurements with the same reading one is found for each key that is bound. -/
theorem Binding.exists_find?_all {bindings : List Binding} {key : MetricKey}
    (h : key ∈ bindings.map Binding.key) (reading : Reading) :
    ∃ m, (Binding.all bindings reading).find? (fun m ↦ m.key = key) = some m ∧
      m.reading = reading := by
  obtain ⟨b, hb, rfl⟩ := List.mem_map.mp h
  have hsome : ((Binding.all bindings reading).find? fun m ↦ m.key = b.key).isSome = true :=
    List.find?_isSome.mpr ⟨⟨b.key, reading, b.internal⟩, List.mem_map.mpr ⟨b, hb, rfl⟩, by simp⟩
  obtain ⟨m, hm⟩ := Option.isSome_iff_exists.mp hsome
  obtain ⟨c, -, rfl⟩ := List.mem_map.mp (List.mem_of_find?_eq_some hm)
  exact ⟨_, hm, rfl⟩

/-- The results of a grouped test after the turn of its query: one for each row that the query came
back with, in order and each of its own row only, or else one error. -/
structure CompiledTest.JudgesRows (t : CompiledTest) (fields : List String) (g : QueryGroup)
    (sql : String) (u : Turn) (results : List TestResult) : Prop where
  each : ∀ rows, u.outcome = g.answered sql none (.ok rows) →
    rows.rows = [] ∨ HasFields fields rows.columns →
      results = rows.rows.map fun row ↦ t.judge (groupedRow fields rows.columns row)
  lacking : ∀ rows, u.outcome = g.answered sql none (.ok rows) →
    ¬ (rows.rows = [] ∨ HasFields fields rows.columns) → ∃ e, results = [t.refuse e]
  unanswered : (∀ rows, u.outcome ≠ g.answered sql none (.ok rows)) → ∃ e, results = [t.refuse e]

/-- After the turn of its query a grouped test judges the rows, if what the turn came to is what was
recorded for the key. -/
theorem QueryGroup.TakesTurn.judgesRows {w : Warehouse} {measured : MeasurementSet} {g : QueryGroup}
    {u : Turn} (h : g.TakesTurn w measured u) {sql : String} (hquery : g.query = .sql sql)
    {fields : List String} (hshape : g.shape = .groups fields) {key : MetricKey}
    (hkey : key ∈ g.keys) {t : CompiledTest} (hgrouped : t.grouped = some key) {ms : MeasurementSet}
    (hrecorded : ms.get? key = u.outcome.measurements.find? fun m ↦ m.key = key) :
    t.JudgesRows fields g sql u (t.evaluate ms) := by
  have hread {reading : Reading}
      (hall : u.outcome.measurements = Binding.all g.bindings reading) :
      ∃ m, ms.get? key = some m ∧ m.reading = reading := by
    rw [hrecorded, hall]
    exact Binding.exists_find?_all hkey reading
  have hrefused (reading : Reading) (hvalue : reading.value? = none)
      (hall : u.outcome.measurements = Binding.all g.bindings reading) :
      ∃ e, t.evaluate ms = [t.refuse e] := by
    obtain ⟨m, hget, hreading⟩ := hread hall
    exact CompiledTest.exists_evaluate_eq_refuse hgrouped hget (hreading ▸ hvalue)
  have hanswered {rows : Rows} (hrows : u.outcome = g.answered sql none (.ok rows)) :
      u.outcome.measurements = Binding.all g.bindings (rows.groupsReading fields) := by
    rw [hrows]
    exact g.measure_groups hshape rows none
  refine ⟨fun rows hrows hfields ↦ ?_, fun rows hrows hnot ↦ ?_, fun hnot ↦ ?_⟩
  · obtain ⟨m, hget, hreading⟩ := hread (hanswered hrows)
    rw [Rows.groupsReading, Rows.groupRows_of_hasFields hfields] at hreading
    rw [CompiledTest.evaluate_of_groups hgrouped hget hreading, List.map_map]
    rfl
  · obtain ⟨message, hmessage⟩ := Rows.exists_groupRows_eq_error hnot
    refine hrefused _ ?_ (hanswered hrows)
    rw [Rows.groupsReading, hmessage]
    rfl
  · cases h with
    | skipped => exact hrefused (.skipped Session.cancelledReason) rfl rfl
    | ran answer =>
      have hrun := g.run_of_sql hquery w answer measured
      cases hanswer : answer sql with
      | error e =>
        rw [hanswer] at hrun
        refine hrefused (.failed e.message) rfl ?_
        exact congrArg GroupOutcome.measurements hrun
      | ok rows =>
        rw [hanswer] at hrun
        exact absurd hrun (hnot rows)

/-- In every scan the query of a grouped test has one turn, and the test judges its rows, if nothing
else writes the key of the rows. -/
theorem Scan.ReportsRun.exists_judgesRows {d : Draft} {scan : Scan} {r : Run} {result : ScanResult}
    (h : scan.ReportsRun d.plan r result) {m : DeclaredMetric} {fields : List String}
    {key : MetricKey} {g : QueryGroup}
    (hrows : d.config.GroupsRows d.columns d.plan m fields key g)
    (honce : (d.plan.written.map Prod.fst).count key = 1) {t : CompiledTest}
    (hgrouped : t.grouped = some key) :
    ∃ u ∈ r.turns, (∀ v ∈ r.turns, v.outcome.id = g.id ↔ v = u) ∧
      t.JudgesRows fields g m.metric.sql u
        (t.evaluate (r.ledger.derive d.plan.derived).measurements) := by
  obtain ⟨hrow, hschema⟩ :=
    Draft.ne_of_count_written hrows.group hrows.phase hrows.mem_keys honce
  obtain ⟨u, hu⟩ := h.exists_settles hrows.group hrows.phase hrows.mem_keys hrow hschema
  obtain ⟨measured, htakes⟩ := hu.takes
  exact ⟨u, hu.mem, fun v hv ↦ ⟨hu.only v hv, fun heq ↦ heq ▸ htakes.id⟩,
    htakes.judgesRows hrows.query hrows.shape hrows.mem_keys hgrouped hu.recorded⟩

/-! ### Scans in which all queries are answered alike -/

/-- A warehouse that answers every query with the same rows. -/
def answerRows (rows : Rows) : String → Except ScanError Rows := fun _ ↦ .ok rows

theorem kept_answerRows (rows : Rows) (sql : String) (e : ScanError)
    (h : answerRows rows sql = .error e) : e.isConnectionError = false := by
  cases h

/-- The turns in such a warehouse. -/
def TurnChoice.answering (w : Warehouse) (rows : Rows) : TurnChoice w :=
  .ofAnswers w (fun _ ↦ answerRows rows) fun _ ↦ kept_answerRows rows

/-- These turns make up what comes of a scan of the warehouse. -/
theorem Scan.execute_answerRows {scan : Scan} (hfresh : scan.stage = .initialized) (p : Plan)
    (rows : Rows) : (scan.execute (.ofAnswers (answerRows rows)) p).2 =
      .ok (scan.chosenResult p (.answering scan.dialect rows)) :=
  Scan.execute_ofAnswers (kept_answerRows rows) hfresh p

/-- A group whose query is known has a turn in which the query is answered with the rows. -/
theorem Draft.exists_answered_turn {d : Draft} (scan : Scan) (rows : Rows) {g : QueryGroup}
    (hg : g ∈ d.plan.groups) {sql : String} (hquery : g.query = .sql sql) :
    ∃ u ∈ (scan.chosenRun d.plan (.answering scan.dialect rows)).turns,
      u.outcome = g.answered sql none (.ok rows) := by
  obtain ⟨measured, hturn⟩ :=
    Draft.exists_chosen_turn scan (.answering scan.dialect rows) hg
  exact ⟨_, hturn, g.run_of_sql hquery scan.dialect (answerRows rows) measured⟩

/-- In such a scan the answer is judged row by row, if it has the group fields. -/
theorem Draft.evaluate_answering {d : Draft} {m : DeclaredMetric} {fields : List String}
    {key : MetricKey} {g : QueryGroup}
    (hrows : d.config.GroupsRows d.columns d.plan m fields key g)
    (honce : (d.plan.written.map Prod.fst).count key = 1) {t : CompiledTest}
    (hgrouped : t.grouped = some key) (scan : Scan) (rows : Rows)
    (hfields : HasFields fields rows.columns) :
    t.evaluate ((scan.chosenRun d.plan (.answering scan.dialect rows)).ledger.derive
        d.plan.derived).measurements =
      rows.rows.map fun row ↦ t.judge (groupedRow fields rows.columns row) := by
  obtain ⟨u, -, honly, hjudges⟩ :=
    (scan.reports_chosen d.plan (.answering scan.dialect rows)).exists_judgesRows hrows honce
      hgrouped
  obtain ⟨v, hv, hanswered⟩ := Draft.exists_answered_turn scan rows hrows.group hrows.query
  obtain rfl : v = u := (honly v hv).mp (by rw [hanswered]; rfl)
  exact hjudges.each rows hanswered (.inr hfields)

/-! ### What results carry -/

/-- The result is told apart by exactly these cells. -/
def TestResult.Carries (res : TestResult) (cells : List (String × Value)) : Prop :=
  ∃ group, res.group = some group ∧ group.Perm cells

/-- The result for a row carries all cells of the group fields if no two of them have columns of the
same name in lower case. -/
theorem CompiledTest.carries_judge_iff (t : CompiledTest) (fields header : List String)
    (row : List Value) :
    (t.judge (groupedRow fields header row)).Carries (fieldCells fields header row) ↔
      ((fieldCells fields header row).map Prod.fst).Nodup := by
  rw [← group_groupedRow_perm_iff]
  constructor
  · rintro ⟨group, hgroup, hperm⟩
    obtain rfl := Option.some.inj hgroup
    exact hperm
  · exact fun hperm ↦ ⟨_, rfl, hperm⟩

/-- Let nothing but one query write the key of a grouped test. Then the query has group fields, and
there is a way to judge single rows under a header, with the following property for every scan. If
the query came back without rows, or its header has all group fields, the results of the test are
what comes of its rows, one by one and in order. If the header lacks a group field, or the query did
not come back, there is one result, which is an error. What comes of a row carries exactly the cells
of the group fields if no two of them have columns of the same name in lower case. -/
theorem ScanConfiguration.exists_judge {w : Warehouse} {cap : Nat} {config : ScanConfiguration}
    {columns : List TableColumn} {p : Plan} (hplan : config.plan w cap columns = .ok p)
    {t : CompiledTest} (ht : t ∈ p.tests) {key : MetricKey} (hgrouped : t.grouped = some key)
    (honce : (p.written.map Prod.fst).count key = 1) :
    ∃ m fields g, config.GroupsRows columns p m fields key g ∧
      ∃ judge : List String → List Value → TestResult,
        (∀ header row, (judge header row).Carries (fieldCells fields header row) ↔
          ((fieldCells fields header row).map Prod.fst).Nodup) ∧
        ∀ (scan : Scan) (r : Run) (result : ScanResult), scan.ReportsRun p r result →
          let ms := (r.ledger.derive p.derived).measurements
          result.tests = p.tests.flatMap (fun t ↦ t.evaluate ms) ∧
            ∃ u ∈ r.turns, (∀ v ∈ r.turns, v.outcome.id = g.id ↔ v = u) ∧
              (∀ rows, u.outcome = g.answered m.metric.sql none (.ok rows) →
                rows.rows = [] ∨ HasFields fields rows.columns →
                  t.evaluate ms = rows.rows.map (judge rows.columns)) ∧
              (∀ rows, u.outcome = g.answered m.metric.sql none (.ok rows) →
                ¬ (rows.rows = [] ∨ HasFields fields rows.columns) →
                  ∃ res, t.evaluate ms = [res] ∧ res.outcome = .error) ∧
              ((∀ rows, u.outcome ≠ g.answered m.metric.sql none (.ok rows)) →
                ∃ res, t.evaluate ms = [res] ∧ res.outcome = .error) := by
  obtain ⟨_, source, _, rfl⟩ := ScanConfiguration.plan_eq_ok_iff.mp hplan
  let d : Draft := ⟨w, cap, config, columns, source⟩
  obtain ⟨m, fields, g, hrows⟩ := Draft.exists_groupsRows (d := d) ht hgrouped
  refine ⟨m, fields, g, hrows, fun header row ↦ t.judge (groupedRow fields header row),
    fun header row ↦ t.carries_judge_iff fields header row, fun scan r result hreports ↦ ?_⟩
  obtain ⟨u, hu, honly, hjudges⟩ :=
    Scan.ReportsRun.exists_judgesRows (d := d) hreports hrows honce hgrouped
  refine ⟨by rw [hreports.result]; rfl, u, hu, honly, hjudges.each, fun rows hrows hnot ↦ ?_,
    fun hnot ↦ ?_⟩
  · obtain ⟨e, he⟩ := hjudges.lacking rows hrows hnot
    exact ⟨_, he, rfl⟩
  · obtain ⟨e, he⟩ := hjudges.unanswered hnot
    exact ⟨_, he, rfl⟩

/-- Totals of orders by group fields, with a test that the measure of the given name is zero. -/
def totalsQuery (fields : List String) (name : String) : DeclaredMetric where
  column := none
  index := 0
  metric :=
    { SqlMetric.numeric "SELECT country, SUM(total) FROM orders GROUP BY country" with
      name := some "totals"
      groupFields := some fields
      tests := [name ++ " == 0"] }

/-- A table of orders with this query. -/
def totalsConfiguration (fields : List String) (name : String) : ScanConfiguration :=
  { ScanConfiguration.ofTable "orders" with sqlMetrics := [(totalsQuery fields name).metric] }

/-- The draft of its plan. -/
def totalsDraft (fields : List String) (name : String) : Draft :=
  ⟨.postgreSQL, 0, totalsConfiguration fields name, tallyColumns,
    .withFilter (Warehouse.postgreSQL.qualifyTable "orders") none⟩

/-- It is the plan of its configuration. -/
theorem plan_totalsConfiguration (fields : List String) (name : String) :
    (totalsConfiguration fields name).plan .postgreSQL 0 tallyColumns =
      .ok (totalsDraft fields name).plan :=
  ScanConfiguration.plan_eq_ok_iff.mpr ⟨rfl, _, rfl, rfl⟩

/-- Its only query has these group fields. -/
theorem fields_of_totalsConfiguration {fields others : List String} {name : String} {p : Plan}
    {m : DeclaredMetric} {key : MetricKey} {g : QueryGroup}
    (h : (totalsConfiguration fields name).GroupsRows tallyColumns p m others key g) :
    others = fields := by
  have hfields := h.groupFields
  rw [show m = totalsQuery fields name from List.mem_singleton.mp h.declared] at hfields
  exact (Option.some.inj hfields).symm

/-- The custom query of the plan has its group and its test. -/
private theorem customs_totalsDraft {fields : List String} (hfields : fields ≠ []) (name : String) :
    let query := totalsQuery fields name
    let form : CustomForm :=
      ⟨.groups fields, [query.binding "totals" none], [name ++ " == 0"],
        some (.ofTable "totals")⟩
    (totalsDraft fields name).customs =
      [⟨[], some (query.groupOf form), some (query.testsOf "orders" form)⟩] := by
  obtain ⟨first, rest, rfl⟩ := List.exists_cons_of_ne_nil hfields
  have hsql : Text.isBlank "SELECT country, SUM(total) FROM orders GROUP BY country" = false := by
    decide
  rw [Draft.customs, Draft.declared, Draft.measured_of_nothing rfl rfl rfl,
    @Draft.planned_of_nothing (totalsDraft _ name) rfl rfl rfl]
  change [(totalsQuery _ name).plan "orders" []] = _
  unfold DeclaredMetric.plan
  rw [show (totalsQuery (first :: rest) name).metric.sql =
    "SELECT country, SUM(total) FROM orders GROUP BY country" from rfl, hsql]
  rfl

/-- A test that can be read is compiled where rows are judged, whatever it refers to. -/
theorem TestScope.exists_compileOne_of_grouped (scope : TestScope) {key : MetricKey}
    (hgrouped : scope.grouped = some key) (available : List MetricKey) (index : Nat)
    {source : String} {x : TestExpression} (hparse : TestExpression.parse source = .ok x) :
    ∃ t, scope.compileOne available index source = .ok t ∧ t.grouped = some key ∧
      t.expression = x := by
  have hunresolved : scope.unresolved available x.identifiers = [] :=
    unresolved_eq_nil_iff.mpr fun hnone ↦ by simp [hgrouped] at hnone
  exact ⟨_, compileOne_eq_ok_iff.mpr ⟨x, hparse, hunresolved, rfl⟩, hgrouped, rfl⟩

/-- If there are group fields and the name is a word and no keyword, the plan has one test, which
judges the rows by the name. -/
theorem exists_tests_totalsDraft (fields : List String) (hfields : fields ≠ []) {name : String}
    (hspells : Token.Spells name.toList (.identifier name)) :
    ∃ t, (totalsDraft fields name).plan.tests = [t] ∧ t.grouped = some (.ofTable "totals") ∧
      t.expression.identifiers = [name] := by
  have hparse : TestExpression.parse (name ++ " == 0") =
      .ok ⟨Text.trim (name ++ " == 0"), zeroTree name⟩ := by
    rw [TestExpression.parse, Expr.parse_append_zero hspells]
    rfl
  have hcustoms := customs_totalsDraft hfields name
  have hplanned := @Draft.planned_of_nothing (totalsDraft fields name) rfl rfl rfl
  obtain ⟨t, ht, hgrouped, htree⟩ := TestScope.exists_compileOne_of_grouped
    ((totalsQuery fields name).scope "orders" [(totalsQuery fields name).binding "totals" none]
      (some (.ofTable "totals"))) rfl
    ((totalsDraft fields name).requests.map MetricRequest.key) 0 hparse
  have hcompiled : (totalsDraft fields name).compiled = [.ok t] := by
    rw [Draft.compiled, Draft.tests, hcustoms, hplanned]
    change [TestScope.compileOne _ _ 0 (name ++ " == 0")] = _
    exact congrArg (fun c ↦ [c]) ht
  exact ⟨t, by rw [Draft.plan_tests, hcompiled]; rfl, hgrouped, by rw [htree]; rfl⟩

/-- Nothing but the query writes the key of the rows. -/
theorem count_written_totalsDraft (fields : List String) (hfields : fields ≠ []) (name : String) :
    ((totalsDraft fields name).plan.written.map Prod.fst).count (.ofTable "totals") = 1 := by
  have hplanned := @Draft.planned_of_nothing (totalsDraft fields name) rfl rfl rfl
  have hmeasured : (totalsDraft fields name).measured = [] := Draft.measured_of_nothing rfl rfl rfl
  have hwritten : (totalsDraft fields name).plan.written.map Prod.fst =
      [.ofTable schemaMetric, .ofTable "totals"] := by
    unfold Plan.written
    rw [Draft.flatMap_groupsIn, Draft.plan_groups, flatMap_numberGroups, Draft.catalogGroups,
      List.flatMap_append, List.flatMap_append, entries_aggregateGroups, Draft.plan_derived,
      Draft.derived, Draft.customGroups, Draft.requests, Draft.customKeys,
      customs_totalsDraft hfields, hmeasured, hplanned]
    rfl
  rw [hwritten]
  decide

/-- Where the answer has the group fields, the results of a scan are those of its rows. -/
theorem exists_result_totalsConfiguration (fields : List String) (hfields : fields ≠ [])
    {name : String} (hspells : Token.Spells name.toList (.identifier name)) (rows : Rows)
    (hhas : HasFields fields rows.columns) :
    let p := (totalsDraft fields name).plan
    ∃ t ∈ p.tests, t.grouped = some (.ofTable "totals") ∧ t.expression.identifiers = [name] ∧
      ∃ result, ((Scan.ofConfiguration .postgreSQL (totalsConfiguration fields name)).execute
          (.ofAnswers (answerRows rows)) p).2 = .ok result ∧
        result.tests = rows.rows.map fun row ↦ t.judge (groupedRow fields rows.columns row) := by
  intro p
  obtain ⟨t, htests, hgrouped, hnames⟩ := exists_tests_totalsDraft fields hfields hspells
  have ht : t ∈ p.tests := htests ▸ List.mem_singleton_self t
  obtain ⟨m, others, g, hrows⟩ := Draft.exists_groupsRows ht hgrouped
  obtain rfl := fields_of_totalsConfiguration hrows
  let scan := Scan.ofConfiguration .postgreSQL (totalsConfiguration others name)
  refine ⟨t, ht, hgrouped, hnames, _, Scan.execute_answerRows rfl p rows, ?_⟩
  change p.tests.flatMap _ = _
  rw [htests, List.flatMap_singleton]
  exact Draft.evaluate_answering hrows (count_written_totalsDraft others hfields name) hgrouped
    scan rows hhas

/-- The totals of two countries are two results, and each carries its country. -/
theorem totalsConfiguration_judged :
    let p := (totalsDraft ["country"] "total").plan
    let rows : Rows := ⟨["Country", "total"], [[.text "NL", .int 0], [.text "BE", .int 4]]⟩
    (totalsConfiguration ["country"] "total").plan .postgreSQL 0 tallyColumns = .ok p ∧
      (∃ t ∈ p.tests, t.grouped = some (.ofTable "totals")) ∧
      (p.written.map Prod.fst).count (.ofTable "totals") = 1 ∧
      ∃ result, ((Scan.ofConfiguration .postgreSQL
          (totalsConfiguration ["country"] "total")).execute (.ofAnswers (answerRows rows)) p).2 =
            .ok result ∧
        List.Forall₂ (fun row res ↦ res.Carries (fieldCells ["country"] rows.columns row))
          rows.rows result.tests := by
  intro p rows
  have hspells : Token.Spells "total".toList (.identifier "total") :=
    Token.spells_identifier_iff.mpr ⟨⟨'t', "otal".toList, by decide, by decide⟩, rfl⟩
  have hplan := plan_totalsConfiguration ["country"] "total"
  have honce := count_written_totalsDraft ["country"] (by simp) "total"
  obtain ⟨t, htests, hgrouped, -⟩ :=
    exists_tests_totalsDraft ["country"] (by simp) hspells
  have ht : t ∈ p.tests := htests ▸ List.mem_singleton_self t
  let scan := Scan.ofConfiguration .postgreSQL (totalsConfiguration ["country"] "total")
  obtain ⟨m, fields, g, hrows, judge, hcarries, hjudge⟩ :=
    ScanConfiguration.exists_judge hplan ht hgrouped honce
  obtain rfl := fields_of_totalsConfiguration hrows
  obtain ⟨htotal, u, -, honly, heach, -⟩ :=
    hjudge scan _ _ (scan.reports_chosen p (.answering scan.dialect rows))
  obtain ⟨v, hv, hanswered⟩ := Draft.exists_answered_turn scan rows hrows.group hrows.query
  obtain rfl : v = u := (honly v hv).mp (by rw [hanswered]; rfl)
  refine ⟨hplan, ⟨t, ht, hgrouped⟩, honce, _, Scan.execute_answerRows rfl p rows, ?_⟩
  rw [htotal, htests, List.flatMap_singleton, heach rows hanswered (.inr (by decide)),
    List.forall₂_map_right_iff, List.forall₂_same]
  have hdistinct : ∀ row ∈ rows.rows,
      ((fieldCells ["country"] rows.columns row).map Prod.fst).Nodup := by
    refine List.forall_mem_cons.mpr ⟨by decide +kernel, List.forall_mem_cons.mpr ⟨?_, by simp⟩⟩
    decide +kernel
  exact fun row hrow ↦ (hcarries rows.columns row).mpr (hdistinct row hrow)

/-- Groups by two columns that differ in the case of a letter outside ASCII only are told apart by
the second column alone. -/
theorem totalsConfiguration_loses_field :
    let p := (totalsDraft ["Ä", "ä"] "total").plan
    let rows : Rows := ⟨["Ä", "ä", "total"], [[.text "x", .text "y", .int 4]]⟩
    (totalsConfiguration ["Ä", "ä"] "total").error? = none ∧
      (totalsConfiguration ["Ä", "ä"] "total").plan .postgreSQL 0 tallyColumns = .ok p ∧
      (p.written.map Prod.fst).count (.ofTable "totals") = 1 ∧
      fieldCells ["Ä", "ä"] rows.columns [.text "x", .text "y", .int 4] =
        [("ä", .text "x"), ("ä", .text "y")] ∧
      ∃ result, ((Scan.ofConfiguration .postgreSQL
          (totalsConfiguration ["Ä", "ä"] "total")).execute (.ofAnswers (answerRows rows)) p).2 =
            .ok result ∧
        ∃ res, result.tests = [res] ∧ res.group = some [("ä", .text "y")] ∧
          ¬ res.Carries [("ä", .text "x"), ("ä", .text "y")] := by
  intro p rows
  have hspells : Token.Spells "total".toList (.identifier "total") :=
    Token.spells_identifier_iff.mpr ⟨⟨'t', "otal".toList, by decide, by decide⟩, rfl⟩
  obtain ⟨t, -, -, -, result, hresult, htests⟩ :=
    exists_result_totalsConfiguration ["Ä", "ä"] (by simp) hspells rows (by decide)
  refine ⟨by decide, plan_totalsConfiguration ["Ä", "ä"] "total",
    count_written_totalsDraft ["Ä", "ä"] (by simp) "total", rfl, result, hresult, _, htests, rfl,
    ?_⟩
  rintro ⟨group, hgroup, hperm⟩
  obtain rfl := Option.some.inj hgroup
  exact absurd hperm.length_eq (by decide)

end DataQuality
