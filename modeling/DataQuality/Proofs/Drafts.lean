import Mathlib.Data.List.Nodup
import Mathlib.Data.List.Perm.Basic
import DataQuality.Proofs.CustomQueries
import DataQuality.Proofs.Merging
import DataQuality.Proofs.PlannedColumns

/-!
# Drafts

The parts of a plan while it is assembled, and what holds of its catalog part whatever the custom
queries are: every metric of a column is obtained once and carries the flag of its request.
-/

namespace DataQuality

/-- What a plan is assembled from once the source of its queries is known. -/
structure Draft where
  warehouse : Warehouse
  cap : Nat
  config : ScanConfiguration
  columns : List TableColumn
  source : QuerySource

namespace Draft

/-- What is asked of the whole scan. -/
def selection (d : Draft) : Selection := .ofNames d.config.metrics d.config.metricGroups

/-- The columns as they are planned. -/
def planned (d : Draft) : List PlannedColumn :=
  d.columns.map (planColumn d.warehouse d.config d.source d.selection.metrics)

/-- The requests for metrics of the catalog. -/
def measured (d : Draft) : List MetricRequest :=
  (scanWideFindings d.selection).requests ++ d.planned.flatMap fun c ↦ c.findings.requests

/-- The custom queries of the table and of its columns. -/
def declared (d : Draft) : List DeclaredMetric :=
  declareMetrics none 0 d.config.sqlMetrics ++ d.planned.flatMap PlannedColumn.customs

/-- The custom queries as they are planned. -/
def customs (d : Draft) : List CustomPlan :=
  planCustom d.config.tableName (d.measured.map MetricRequest.key) d.declared

/-- The keys that custom queries bind. -/
def customKeys (d : Draft) : List MetricKey := d.customs.flatMap CustomPlan.keys

/-- All requests, each key once. -/
def requests (d : Draft) : List MetricRequest :=
  mergeRequests (d.measured ++ d.customKeys.map fun key ↦ ⟨key, none, false⟩)

/-- The groups that measure metrics of the catalog. -/
def catalogGroups (d : Draft) : List GroupSpec :=
  aggregateGroups d.cap d.source (isInternal d.requests) (allAggregates d.requests d.planned) ++
    d.planned.flatMap PlannedColumn.groups

/-- The groups of custom queries. -/
def customGroups (d : Draft) : List GroupSpec := d.customs.flatMap fun c ↦ c.group.toList

/-- The metrics that are derived. -/
def derived (d : Draft) : List DerivedMetric := d.planned.flatMap PlannedColumn.derived

/-- The tests that are declared with the table, its columns and the custom queries. -/
def tests (d : Draft) : List DeclaredTests :=
  ⟨.ofTable d.config.tableName, d.config.tests⟩ :: d.planned.flatMap PlannedColumn.tests ++
    d.customs.flatMap fun c ↦ c.tests.toList

/-- What compiling the tests comes to. -/
def compiled (d : Draft) : List (Except Issue CompiledTest) :=
  d.tests.flatMap fun t ↦ t.compile (d.requests.map MetricRequest.key)

/-- The plan. -/
def plan (d : Draft) : Plan :=
  assemblePlan d.cap d.config d.columns d.source (scanWideFindings d.selection) d.planned

theorem plan_requests (d : Draft) : d.plan.requests = d.requests := rfl

theorem plan_groups (d : Draft) :
    d.plan.groups = numberGroups 0 (d.catalogGroups ++ d.customGroups) := rfl

theorem plan_derived (d : Draft) : d.plan.derived = d.derived := rfl

theorem plan_tests (d : Draft) : d.plan.tests = successes d.compiled := rfl

theorem plan_issues (d : Draft) :
    d.plan.issues =
      mergeIssues ((scanWideFindings d.selection).issues ++
        d.planned.flatMap (fun c ↦ c.findings.issues) ++ d.customs.flatMap CustomPlan.issues) ++
      failures d.compiled := rfl

end Draft

/-- Planning succeeds with the plan of a draft, when every configured column was found and the
dialect can draw the sample. -/
theorem ScanConfiguration.plan_eq_ok_iff {w : Warehouse} {cap : Nat} {config : ScanConfiguration}
    {columns : List TableColumn} {p : Plan} :
    config.plan w cap columns = .ok p ↔
      config.unknownColumn? columns = none ∧
        ∃ source, config.source w = .ok source ∧
          p = Draft.plan ⟨w, cap, config, columns, source⟩ := by
  unfold ScanConfiguration.plan
  cases config.unknownColumn? columns with
  | some name => simp
  | none =>
    cases config.source w with
    | error e => simp [Except.map]
    | ok source =>
      simp only [Except.map, Except.ok.injEq, true_and, exists_eq_left']
      exact eq_comm

/-- Without a sample to draw, planning succeeds once every configured column was found. -/
theorem ScanConfiguration.exists_plan {w : Warehouse} {cap : Nat} {config : ScanConfiguration}
    {columns : List TableColumn} (hcolumns : config.unknownColumn? columns = none)
    (hsample : config.samplePercentage = none) : ∃ p, config.plan w cap columns = .ok p := by
  have hsource : ∃ source, config.source w = .ok source := by
    unfold ScanConfiguration.source
    rw [hsample]
    exact ⟨_, rfl⟩
  obtain ⟨source, hsource⟩ := hsource
  exact ⟨_, ScanConfiguration.plan_eq_ok_iff.mpr ⟨hcolumns, source, hsource, rfl⟩⟩

namespace Draft

variable {d : Draft}

/-- The names under which the columns are measured are different. -/
def Distinct (d : Draft) : Prop := (d.columns.map fun c ↦ Text.lower c.name).Nodup

private theorem selection_of_nothing (hmetrics : d.config.metrics = [])
    (hgroups : d.config.metricGroups = []) : d.selection = ⟨[], []⟩ := by
  rw [selection, hmetrics, hgroups]
  rfl

/-- If the catalog is asked for nothing and no column has settings, columns add nothing. -/
theorem planned_of_nothing (hmetrics : d.config.metrics = []) (hgroups : d.config.metricGroups = [])
    (hcolumns : d.config.columns = Dict.empty) :
    d.planned = d.columns.map fun c ↦
      ⟨.ofColumn d.warehouse c none, ⟨[], []⟩, [], [], [], [], []⟩ := by
  unfold planned
  rw [selection_of_nothing hmetrics hgroups]
  refine List.map_congr_left fun c _ ↦ planColumn_of_nothing ?_
  rw [ScanConfiguration.column?, hcolumns]
  rfl

/-- If the catalog is asked for nothing, nothing of it is measured. -/
theorem measured_of_nothing (hmetrics : d.config.metrics = [])
    (hgroups : d.config.metricGroups = []) (hcolumns : d.config.columns = Dict.empty) :
    d.measured = [] := by
  rw [measured, planned_of_nothing hmetrics hgroups hcolumns,
    selection_of_nothing hmetrics hgroups, List.flatMap_map]
  exact List.flatMap_eq_nil_iff.mpr fun _ _ ↦ rfl

end Draft

/-- If the catalog is asked for nothing, a plan holds custom queries and tests only. -/
theorem ScanConfiguration.plan_of_nothing {w : Warehouse} {cap : Nat} {config : ScanConfiguration}
    {columns : List TableColumn} (hmetrics : config.metrics = [])
    (hgroups : config.metricGroups = []) (hcolumns : config.columns = Dict.empty)
    (hsample : config.samplePercentage = none) :
    config.plan w cap columns = .ok (assemblePlan cap config columns
      (.withFilter (w.qualifyTable config.tableName) config.filter) ⟨[], []⟩
      (columns.map fun c ↦ ⟨.ofColumn w c none, ⟨[], []⟩, [], [], [], [], []⟩)) := by
  rw [ScanConfiguration.plan_eq_ok_iff]
  refine ⟨?_, .withFilter (w.qualifyTable config.tableName) config.filter, ?_, ?_⟩
  · unfold ScanConfiguration.unknownColumn?
    rw [hcolumns]
    rfl
  · unfold ScanConfiguration.source
    rw [hsample]
  · unfold Draft.plan
    rw [Draft.planned_of_nothing hmetrics hgroups hcolumns,
      Draft.selection_of_nothing hmetrics hgroups]
    rfl

/-- The whole scan requests the number of rows, if that is asked for, and nothing else. -/
theorem mem_requests_scanWideFindings {selection : Selection} {r : MetricRequest} :
    r ∈ (scanWideFindings selection).requests ↔
      r = rowCountRequest false ∧ .rowCount ∈ selection.metrics := by
  unfold scanWideFindings
  by_cases h : .rowCount ∈ selection.metrics <;> simp [h]

namespace Draft

variable {d : Draft}

/-! ### Requests -/

/-- A request for a metric of the catalog is for the number of rows or for a metric of a column. -/
theorem request_cases {r : MetricRequest} (h : r ∈ d.measured) :
    (∃ internal, r = rowCountRequest internal) ∨
      ∃ column m internal, m ≠ .rowCount ∧ r = ⟨.ofColumn column m.name, some m, internal⟩ := by
  rcases List.mem_append.mp h with hr | hr
  · exact .inl ⟨false, (mem_requests_scanWideFindings.mp hr).1⟩
  · obtain ⟨c, hc, hr⟩ := List.mem_flatMap.mp hr
    obtain ⟨column, _, rfl⟩ := List.mem_map.mp hc
    rcases request_cases_planColumn hr with hrow | ⟨m, internal, hm, hr⟩
    · exact .inl hrow
    · exact .inr ⟨_, m, internal, hm, hr⟩

/-- The keys of the whole table that the catalog requests are those of the number of rows. -/
theorem eq_rowCount_of_measured {key : MetricKey} (h : key ∈ d.measured.map MetricRequest.key)
    (hcolumn : key.column.isSome = false) : key = .ofTable Metric.rowCount.name := by
  obtain ⟨r, hr, rfl⟩ := List.mem_map.mp h
  rcases request_cases hr with ⟨internal, rfl⟩ | ⟨column, m, internal, _, rfl⟩
  · rfl
  · cases hcolumn

/-- The metrics of columns are requested column by column. -/
theorem columnKeys_measured :
    columnKeys d.measured = d.planned.flatMap fun c ↦ columnKeys c.findings.requests := by
  have hscan : columnKeys (scanWideFindings d.selection).requests = [] := by
    unfold scanWideFindings
    dsimp only
    split <;> rfl
  rw [measured, columnKeys_append, hscan, List.nil_append]
  induction d.planned with
  | nil => rfl
  | cons c rest ih => rw [List.flatMap_cons, columnKeys_append, ih, List.flatMap_cons]

/-- Each metric of a column is requested once, if the columns have different names. -/
theorem nodup_columnKeys_measured (h : d.Distinct) : (columnKeys d.measured).Nodup := by
  rw [columnKeys_measured, planned, List.flatMap_map, List.nodup_flatMap]
  refine ⟨fun column _ ↦ nodup_columnKeys_planColumn _ _ _ _ column, ?_⟩
  rw [Distinct, List.Nodup, List.pairwise_map] at h
  refine h.imp ?_
  intro column other hne key hkey hother
  have hcolumn := column_of_mem_columnKeys_planColumn hkey
  have hcolumn' := column_of_mem_columnKeys_planColumn hother
  rw [hcolumn, Option.some.injEq] at hcolumn'
  exact hne hcolumn'

/-- What is requested is what the catalog measures and what custom queries bind. -/
theorem mem_keys_requests {key : MetricKey} :
    key ∈ d.requests.map MetricRequest.key ↔
      key ∈ d.measured.map MetricRequest.key ∨ key ∈ d.customKeys := by
  rw [requests, mem_keys_mergeRequests, List.map_append, List.mem_append, List.map_map]
  have hid : List.map (MetricRequest.key ∘ fun key ↦ ⟨key, none, false⟩) d.customKeys =
      d.customKeys := List.map_id' _
  rw [hid]

/-- No custom query binds what the catalog measures. -/
theorem not_measured_of_mem_customKeys {key : MetricKey} (h : key ∈ d.customKeys) :
    key ∉ d.measured.map MetricRequest.key :=
  not_known_of_mem_planCustom h

/-- A request is for a metric of the catalog exactly if the catalog measures its key. -/
theorem metric_isSome_iff {r : MetricRequest} (h : r ∈ d.requests) :
    r.metric.isSome = true ↔ r.key ∈ d.measured.map MetricRequest.key := by
  obtain ⟨q, hq, hkey, hmetric⟩ := exists_of_mem_mergeRequests h
  rw [← hkey, ← hmetric]
  rcases List.mem_append.mp hq with hq | hq
  · refine iff_of_true ?_ (List.mem_map_of_mem hq)
    rcases request_cases hq with ⟨internal, rfl⟩ | ⟨column, m, internal, _, rfl⟩
    · rfl
    · rfl
  · obtain ⟨key, hcustom, rfl⟩ := List.mem_map.mp hq
    exact iff_of_false (by simp) (not_measured_of_mem_customKeys hcustom)

/-- The request of a metric of a column is as internal as the column says. -/
theorem internal_of_measured (h : d.Distinct) {q r : MetricRequest} (hq : q ∈ d.measured)
    (hcolumn : q.key.column.isSome = true) (hr : r ∈ d.requests) (hkey : r.key = q.key) :
    r.internal = q.internal := by
  have hsame : ∀ x ∈ d.measured, x.key = q.key → x = q := by
    intro x hx hxq
    have hnodup := nodup_columnKeys_measured h
    rw [columnKeys, List.filter_map] at hnodup
    refine List.inj_on_of_nodup_map hnodup ?_ ?_ hxq
    · exact List.mem_filter.mpr ⟨hx, by simpa [hxq] using hcolumn⟩
    · exact List.mem_filter.mpr ⟨hq, hcolumn⟩
  have hiff := internal_iff_of_mem_mergeRequests hr
  rw [Bool.eq_iff_iff, hiff]
  constructor
  · intro hall
    exact hall q (List.mem_append_left _ hq) hkey.symm
  · intro hinternal x hx hxr
    rcases List.mem_append.mp hx with hx | hx
    · rw [hsame x hx (hxr.trans hkey)]
      exact hinternal
    · obtain ⟨key, hcustom, rfl⟩ := List.mem_map.mp hx
      have hmeasured : key ∈ d.measured.map MetricRequest.key := by
        rw [show key = q.key from hxr.trans hkey]
        exact List.mem_map_of_mem hq
      exact absurd hmeasured (not_measured_of_mem_customKeys hcustom)

/-! ### What the catalog part produces -/

/-- What the catalog part of a plan obtains, each key with its flag. -/
def catalogEntries (d : Draft) : List (MetricKey × Bool) :=
  d.catalogGroups.flatMap GroupSpec.entries ++ d.derived.map fun m ↦ (m.key, m.internal)

/-- The number of rows, if it is requested. -/
def rowCountKeys (d : Draft) : List MetricKey :=
  if .ofTable Metric.rowCount.name ∈ d.requests.map MetricRequest.key then
    [.ofTable Metric.rowCount.name]
  else []

/-- The aggregates are those of the columns, and the number of rows if it is requested. -/
theorem map_key_allAggregates :
    (allAggregates d.requests d.planned).map AggregateExpr.key =
      d.rowCountKeys ++ d.planned.flatMap fun c ↦ c.aggregates.map AggregateExpr.key := by
  unfold allAggregates rowCountKeys
  have hany : (d.requests.any fun r ↦ r.key = .ofTable Metric.rowCount.name) = true ↔
      .ofTable Metric.rowCount.name ∈ d.requests.map MetricRequest.key := by
    simp
  dsimp only
  by_cases h : .ofTable Metric.rowCount.name ∈ d.requests.map MetricRequest.key
  · rw [if_pos h, if_pos (hany.mpr h), List.map_cons, List.map_flatMap]
    rfl
  · rw [if_neg h, if_neg (mt hany.mp h), List.map_flatMap]
    rfl

/-- The catalog part obtains the number of rows, if it is requested, and what is requested of the
columns. -/
theorem keys_catalogEntries_perm :
    (d.catalogEntries.map Prod.fst).Perm (d.rowCountKeys ++ columnKeys d.measured) := by
  have hkeys : d.catalogEntries.map Prod.fst =
      d.rowCountKeys ++ (d.planned.flatMap (fun c ↦ c.aggregates.map AggregateExpr.key) ++
        d.planned.flatMap (fun c ↦ c.groups.flatMap GroupSpec.keys) ++
        d.planned.flatMap fun c ↦ c.derived.map DerivedMetric.key) := by
    unfold catalogEntries catalogGroups derived
    rw [List.flatMap_append, entries_aggregateGroups, List.map_append, List.map_append,
      List.map_map, List.map_map, List.map_flatMap, List.flatMap_assoc, List.map_flatMap]
    have haggregates : List.map (Prod.fst ∘ fun a ↦ (a.key, isInternal d.requests a.key))
        (allAggregates d.requests d.planned) =
        (allAggregates d.requests d.planned).map AggregateExpr.key := rfl
    rw [haggregates, map_key_allAggregates]
    simp only [GroupSpec.map_fst_entries, List.append_assoc]
    rfl
  rw [hkeys, columnKeys_measured]
  apply List.Perm.append_left
  have hcolumns : (d.planned.flatMap PlannedColumn.keys).Perm
      (d.planned.flatMap fun c ↦ columnKeys c.findings.requests) := by
    apply List.Perm.flatMap_left
    intro c hc
    obtain ⟨column, _, rfl⟩ := List.mem_map.mp hc
    exact keys_planColumn_perm _ _ _ _ column
  refine List.Perm.trans ?_ hcolumns
  exact ((List.flatMap_append_perm _ _ _).append_right _).trans (List.flatMap_append_perm _ _ _)

/-- The catalog part obtains each key once. -/
theorem nodup_keys_catalogEntries (h : d.Distinct) : (d.catalogEntries.map Prod.fst).Nodup := by
  rw [keys_catalogEntries_perm.nodup_iff, List.nodup_append]
  refine ⟨?_, nodup_columnKeys_measured h, ?_⟩
  · unfold rowCountKeys
    split <;> simp
  · rintro key hrow other hcolumn rfl
    have hsome := (mem_columnKeys.mp hcolumn).1
    unfold rowCountKeys at hrow
    split at hrow
    · rw [List.mem_singleton] at hrow
      rw [hrow] at hsome
      cases hsome
    · cases hrow

/-- The catalog part obtains what the catalog measures, and the number of rows if a custom query
binds its key. -/
theorem mem_keys_catalogEntries {key : MetricKey} :
    key ∈ d.catalogEntries.map Prod.fst ↔
      key ∈ d.measured.map MetricRequest.key ∨
        key = .ofTable Metric.rowCount.name ∧ key ∈ d.customKeys := by
  rw [keys_catalogEntries_perm.mem_iff, List.mem_append]
  have hrow : key ∈ d.rowCountKeys ↔ key = .ofTable Metric.rowCount.name ∧
      key ∈ d.requests.map MetricRequest.key := by
    unfold rowCountKeys
    split
    · next h =>
      rw [List.mem_singleton]
      exact ⟨fun hk ↦ ⟨hk, hk ▸ h⟩, And.left⟩
    · next h =>
      refine iff_of_false List.not_mem_nil ?_
      rintro ⟨rfl, hk⟩
      exact h hk
  rw [hrow, mem_keys_requests]
  constructor
  · rintro (⟨hk, hm | hc⟩ | hcolumn)
    · exact .inl hm
    · exact .inr ⟨hk, hc⟩
    · obtain ⟨_, r, hr, rfl⟩ := mem_columnKeys.mp hcolumn
      exact .inl (List.mem_map_of_mem hr)
  · rintro (hm | ⟨hk, hc⟩)
    · by_cases hcolumn : key.column.isSome = true
      · obtain ⟨r, hr, rfl⟩ := List.mem_map.mp hm
        exact .inr (mem_columnKeys.mpr ⟨hcolumn, r, hr, rfl⟩)
      · exact .inl ⟨eq_rowCount_of_measured hm (by simpa using hcolumn), .inl hm⟩
    · exact .inl ⟨hk, .inr hc⟩

/-- The groups of custom queries run last, and their queries are known before the scan. -/
theorem phase_of_mem_customGroups {g : GroupSpec} (h : g ∈ d.customGroups) :
    g.phase = .custom ∧ ∃ text, g.query = .sql text := by
  obtain ⟨c, hc, hg⟩ := List.mem_flatMap.mp h
  obtain ⟨m, _, others, rfl⟩ := exists_of_mem_planCustom hc
  obtain ⟨hphase, hquery⟩ := DeclaredMetric.of_group_plan (Option.mem_toList.mp hg)
  exact ⟨hphase, _, hquery⟩

/-- No group of the catalog runs with the custom queries. -/
theorem phase_of_mem_catalogGroups {g : GroupSpec} (h : g ∈ d.catalogGroups) :
    g.phase ≠ .custom := by
  rcases List.mem_append.mp h with hg | hg
  · rw [(phase_of_mem_aggregateGroups hg).1]
    decide
  · obtain ⟨c, hc, hg⟩ := List.mem_flatMap.mp hg
    obtain ⟨column, _, rfl⟩ := List.mem_map.mp hc
    rw [phase_of_mem_planColumn hg]
    decide

/-- Only groups of the second phase wait for bounds. -/
theorem phase_of_histogram {g : QueryGroup} (h : g ∈ d.plan.groups) {q : HistogramQuery}
    (hquery : g.query = .histogram q) : g.phase = .distribution := by
  have hsql : ∀ {text}, g.query ≠ .sql text := by
    intro text htext
    rw [hquery] at htext
    cases htext
  rw [plan_groups] at h
  rcases List.mem_append.mp (mem_of_mem_numberGroups h) with hg | hg
  · rcases List.mem_append.mp hg with hg | hg
    · obtain ⟨_, text, htext⟩ := phase_of_mem_aggregateGroups hg
      exact absurd htext hsql
    · obtain ⟨c, hc, hg⟩ := List.mem_flatMap.mp hg
      obtain ⟨column, _, rfl⟩ := List.mem_map.mp hc
      exact phase_of_mem_planColumn hg
  · obtain ⟨_, text, htext⟩ := phase_of_mem_customGroups hg
    exact absurd htext hsql

/-- What the distribution queries about a column have in common, once its conditions are known. -/
def distributions (d : Draft) (column : TableColumn) (c : ColumnConditions) :
    DistributionContext where
  warehouse := d.warehouse
  profile := d.config.profile d.warehouse column
  valid := c.valid.sql
  source := d.source
  config := d.config
  wanted := (metricPlan d.warehouse d.config d.selection.metrics column).distributions

/-- A group of the second phase is about a column whose conditions the dialect can express. -/
theorem exists_column_of_distribution {g : QueryGroup} (h : g ∈ d.plan.groups)
    (hphase : g.phase = .distribution) :
    ∃ column ∈ d.columns, ∃ c, d.config.conditions d.warehouse column = .ok c ∧
      g.toGroupSpec ∈ (d.distributions column c).groups := by
  rw [plan_groups] at h
  rcases List.mem_append.mp (mem_of_mem_numberGroups h) with hcatalog | hcustom
  · rcases List.mem_append.mp hcatalog with haggregate | hcolumns
    · rw [(phase_of_mem_aggregateGroups haggregate).1] at hphase
      cases hphase
    · obtain ⟨planned, hplanned, hmem⟩ := List.mem_flatMap.mp hcolumns
      obtain ⟨column, hcolumn, rfl⟩ := List.mem_map.mp hplanned
      change g.toGroupSpec ∈ distributionGroups _ _ _ _
        (d.config.conditions d.warehouse column) _ at hmem
      unfold distributionGroups at hmem
      split at hmem
      · next c hc => exact ⟨column, hcolumn, c, hc, hmem⟩
      · cases hmem
  · rw [(phase_of_mem_customGroups hcustom).1] at hphase
    cases hphase

/-- Phase by phase, the groups of a plan are all of its groups in order. -/
theorem flatMap_groupsIn (d : Draft) : Phase.all.flatMap d.plan.groupsIn = d.plan.groups := by
  have hpart : ∀ (phase other : Phase) (id : Nat) (gs : List GroupSpec),
      (∀ g ∈ gs, g.phase = phase) →
      (numberGroups id gs).filter (fun g ↦ g.phase = other) =
        if phase = other then numberGroups id gs else [] := by
    intro phase other id gs hall
    have hphase : ∀ g ∈ numberGroups id gs, g.phase = phase :=
      fun g hg ↦ hall _ (mem_of_mem_numberGroups hg)
    split
    · next heq =>
      rw [List.filter_eq_self]
      intro g hg
      simp [hphase g hg, heq]
    · next hne =>
      rw [List.filter_eq_nil_iff]
      intro g hg
      simp [hphase g hg, hne]
  have haggregate : ∀ g ∈ aggregateGroups d.cap d.source (isInternal d.requests)
      (allAggregates d.requests d.planned), g.phase = .aggregate :=
    fun g hg ↦ (phase_of_mem_aggregateGroups hg).1
  have hdistribution : ∀ g ∈ d.planned.flatMap PlannedColumn.groups, g.phase = .distribution := by
    intro g hg
    obtain ⟨c, hc, hg⟩ := List.mem_flatMap.mp hg
    obtain ⟨column, _, rfl⟩ := List.mem_map.mp hc
    exact phase_of_mem_planColumn hg
  have hcustom : ∀ g ∈ d.customGroups, g.phase = .custom :=
    fun g hg ↦ (phase_of_mem_customGroups hg).1
  unfold Plan.groupsIn
  rw [plan_groups, catalogGroups, numberGroups_append, numberGroups_append]
  simp only [Phase.all, List.flatMap_cons, List.flatMap_nil, List.filter_append, List.append_nil,
    hpart _ _ _ _ haggregate, hpart _ _ _ _ hdistribution, hpart _ _ _ _ hcustom]
  simp

/-- Whatever the catalog part obtains carries the flag of its request. -/
theorem request_of_mem_catalogEntries (h : d.Distinct) {key : MetricKey} {internal : Bool}
    (hmem : (key, internal) ∈ d.catalogEntries) :
    ∃ r ∈ d.requests, r.key = key ∧ r.internal = internal := by
  have hrequested : ∀ {key}, key ∈ d.catalogEntries.map Prod.fst →
      ∃ r ∈ d.requests, r.key = key := by
    intro key hkey
    have hkey' : key ∈ d.requests.map MetricRequest.key := by
      rw [mem_keys_requests]
      rcases mem_keys_catalogEntries.mp hkey with hm | ⟨_, hc⟩
      · exact .inl hm
      · exact .inr hc
    exact List.mem_map.mp hkey'
  obtain ⟨r, hr, hrk⟩ := hrequested (List.mem_map_of_mem hmem)
  refine ⟨r, hr, hrk, ?_⟩
  -- Flags of aggregates are looked up among the requests; all others were settled with the column.
  have hflagged : ∀ column ∈ d.columns,
      (key, internal) ∈
        (planColumn d.warehouse d.config d.source d.selection.metrics column).flagged →
      r.internal = internal := by
    intro column hcolumn hf
    obtain ⟨hsome, m, hq⟩ := request_of_mem_flagged hf
    have hmeasured : ⟨key, some m, internal⟩ ∈ d.measured :=
      List.mem_append_right _ (List.mem_flatMap.mpr ⟨_, List.mem_map_of_mem hcolumn, hq⟩)
    exact internal_of_measured h hmeasured hsome hr hrk
  rw [catalogEntries, catalogGroups, List.flatMap_append, entries_aggregateGroups,
    List.mem_append, List.mem_append] at hmem
  rcases hmem with (ha | hg) | hd
  · obtain ⟨a, _, heq⟩ := List.mem_map.mp ha
    cases heq
    rw [← show r.key = a.key from hrk]
    exact (isInternal_of_mem (nodup_keys_mergeRequests _) hr).symm
  · rw [List.flatMap_assoc] at hg
    obtain ⟨c, hc, hg⟩ := List.mem_flatMap.mp hg
    obtain ⟨column, hcolumn, rfl⟩ := List.mem_map.mp hc
    exact hflagged column hcolumn (List.mem_append_left _ hg)
  · rw [derived, List.map_flatMap] at hd
    obtain ⟨c, hc, hd⟩ := List.mem_flatMap.mp hd
    obtain ⟨column, hcolumn, rfl⟩ := List.mem_map.mp hc
    exact hflagged column hcolumn (List.mem_append_right _ hd)

end Draft

end DataQuality
