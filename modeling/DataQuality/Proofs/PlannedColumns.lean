import Mathlib.Data.List.Nodup
import DataQuality.Plan.Build
import DataQuality.Proofs.GroupEntries

/-!
# Planned columns

What planning a column comes to, from what its settings want to the groups that measure it. All of
it is about the one column, so that columns with different names do not meet.
-/

namespace DataQuality

namespace PlannedColumn

/-- The keys that a column is measured under, however each is obtained. -/
def keys (c : PlannedColumn) : List MetricKey :=
  c.aggregates.map AggregateExpr.key ++ c.groups.flatMap GroupSpec.keys ++
    c.derived.map DerivedMetric.key

/-- The keys whose flags are settled with the column: those of its own groups and those derived. -/
def flagged (c : PlannedColumn) : List (MetricKey × Bool) :=
  c.groups.flatMap GroupSpec.entries ++ c.derived.map fun d ↦ (d.key, d.internal)

end PlannedColumn

/-- Of what is wanted of a column only the number of rows is requested at once. -/
theorem Wanted.eq_rowCountRequest {p : ColumnProfile} {scanWide : List Metric}
    {settings : Option ColumnSettings} {r : MetricRequest}
    (h : r ∈ (Wanted.ofColumn p scanWide settings).findings.requests) :
    r = rowCountRequest false := by
  unfold Wanted.ofColumn at h
  split at h
  · cases h
  · dsimp only at h
    split at h
    · exact List.mem_singleton.mp h
    · cases h

/-- A column as a scan of the configuration sees it. -/
def ScanConfiguration.profile (w : Warehouse) (config : ScanConfiguration) (column : TableColumn) :
    ColumnProfile := .ofColumn w column (config.column? column.name)

/-- The conditions on the rows of a column that its settings come to. -/
def ScanConfiguration.conditions (w : Warehouse) (config : ScanConfiguration)
    (column : TableColumn) : Except DialectError ColumnConditions :=
  ColumnConditions.build w (config.profile w column) (config.column? column.name)

/-- What the metrics of a column come to in its plan. -/
def metricPlan (w : Warehouse) (config : ScanConfiguration) (scanWide : List Metric)
    (column : TableColumn) : ColumnPlan :=
  let settings := config.column? column.name
  let p := ColumnProfile.ofColumn w column settings
  .ofWanted w p (ColumnConditions.build w p settings) (Wanted.ofColumn p scanWide settings).metrics

section

variable (w : Warehouse) (config : ScanConfiguration) (source : QuerySource)
  (scanWide : List Metric) (column : TableColumn)

/-- The plan of the metrics of a column is coherent. -/
theorem coherent_metricPlan :
    (metricPlan w config scanWide column).Coherent
      (.ofColumn w column (config.column? column.name)) :=
  ColumnPlan.coherent_ofWanted _

/-- The metrics of a column that are requested are those that its plan came to. -/
theorem columnKeys_planColumn :
    columnKeys (planColumn w config source scanWide column).findings.requests =
      columnKeys (metricPlan w config scanWide column).findings.requests := by
  change columnKeys (_ ++ _) = _
  rw [columnKeys_append]
  have hnone : ∀ requests : List MetricRequest, (∀ r ∈ requests, r = rowCountRequest false) →
      columnKeys requests = [] := by
    intro requests hall
    rw [List.eq_nil_iff_forall_not_mem]
    intro key hkey
    obtain ⟨hsome, r, hr, rfl⟩ := mem_columnKeys.mp hkey
    rw [hall r hr] at hsome
    exact absurd hsome (by simp [rowCountRequest, MetricKey.ofTable])
  rw [hnone _ fun r hr ↦ Wanted.eq_rowCountRequest hr, List.nil_append]
  rfl

/-- Each metric of a column is requested once. -/
theorem nodup_columnKeys_planColumn :
    (columnKeys (planColumn w config source scanWide column).findings.requests).Nodup := by
  rw [columnKeys_planColumn]
  exact (coherent_metricPlan w config scanWide column).distinct

/-- The metrics that need a query over the values of a column are wanted once. -/
theorem nodup_distributions_metricPlan :
    ((metricPlan w config scanWide column).distributions.map WantedDistribution.metric).Nodup := by
  have h := coherent_metricPlan w config scanWide column
  have hkeys := (h.produced.nodup_iff.mpr h.distinct).of_append_left.of_append_right
  have hmap : ((metricPlan w config scanWide column).distributions.map fun d ↦
      (ColumnProfile.ofColumn w column (config.column? column.name)).metricKey d.metric) =
      ((metricPlan w config scanWide column).distributions.map WantedDistribution.metric).map
        (ColumnProfile.ofColumn w column (config.column? column.name)).metricKey := by
    rw [List.map_map]
    rfl
  exact List.Nodup.of_map _ (hmap ▸ hkeys)

/-- The groups of a column bind what needs a query over its values, in some order. -/
theorem entries_groups_planColumn :
    ((planColumn w config source scanWide column).groups.flatMap GroupSpec.entries).Perm
      ((metricPlan w config scanWide column).distributions.map fun d ↦
        (.ofColumn (Text.lower column.name) d.metric.name, d.internal)) := by
  change List.Perm (List.flatMap _ (distributionGroups w config source _
    (ColumnConditions.build w _ (config.column? column.name)) _)) _
  unfold distributionGroups
  split
  · have hkind := (coherent_metricPlan w config scanWide column).distributions
    exact DistributionContext.entries_groups_perm
      (nodup_distributions_metricPlan w config scanWide column) fun d hd ↦ (hkind d hd).1
  · next e herror =>
    have hnone : (metricPlan w config scanWide column).distributions = [] := by
      dsimp only [metricPlan]
      rw [herror]
      exact ColumnPlan.distributions_of_error _
    rw [hnone]
    exact List.Perm.refl _

/-- The keys that a column is measured under are those requested of it. -/
theorem keys_planColumn_perm :
    (planColumn w config source scanWide column).keys.Perm
      (columnKeys (planColumn w config source scanWide column).findings.requests) := by
  have hgroups := (entries_groups_planColumn w config source scanWide column).map Prod.fst
  rw [List.map_flatMap, List.map_map] at hgroups
  simp only [GroupSpec.map_fst_entries] at hgroups
  rw [columnKeys_planColumn]
  exact ((hgroups.append_left _).append_right _).trans
    (coherent_metricPlan w config scanWide column).produced

end

section

variable {w : Warehouse} {config : ScanConfiguration} {source : QuerySource}
  {scanWide : List Metric} {column : TableColumn}

/-- A request of a column is for the number of rows or for one of its own metrics. -/
theorem request_cases_planColumn {r : MetricRequest}
    (h : r ∈ (planColumn w config source scanWide column).findings.requests) :
    (∃ internal, r = rowCountRequest internal) ∨
      ∃ m internal, m ≠ .rowCount ∧
        r = ⟨.ofColumn (Text.lower column.name) m.name, some m, internal⟩ := by
  rcases List.mem_append.mp h with hw | hm
  · exact .inl ⟨false, Wanted.eq_rowCountRequest hw⟩
  · rcases (coherent_metricPlan w config scanWide column).requests r hm with
      hr | ⟨m, internal, hm, hr⟩
    · exact .inl ⟨true, hr⟩
    · exact .inr ⟨m, internal, hm, hr⟩

/-- What is requested of a column is about that column. -/
theorem column_of_mem_columnKeys_planColumn {key : MetricKey}
    (h : key ∈ columnKeys (planColumn w config source scanWide column).findings.requests) :
    key.column = some (Text.lower column.name) := by
  obtain ⟨hsome, r, hr, rfl⟩ := mem_columnKeys.mp h
  rcases request_cases_planColumn hr with ⟨internal, rfl⟩ | ⟨m, internal, _, rfl⟩
  · exact absurd hsome (by simp [rowCountRequest, MetricKey.ofTable])
  · rfl

/-- A column of which nothing is asked adds nothing to a plan. -/
theorem planColumn_of_nothing (h : config.column? column.name = none) :
    planColumn w config source [] column =
      ⟨.ofColumn w column none, ⟨[], []⟩, [], [], [], [], []⟩ := by
  have hwanted : (Wanted.ofColumn (.ofColumn w column none) [] none).metrics = [] := rfl
  unfold planColumn
  simp only [h, hwanted, ColumnPlan.ofWanted_nil]
  rfl

/-- A column whose settings ask nothing of the catalog adds its tests and custom queries only. -/
theorem planColumn_of_settings {c : ColumnSettings} (h : config.column? column.name = some c)
    (hmetrics : c.metrics = []) (hgroups : c.metricGroups = []) :
    planColumn w config source [] column =
      ⟨.ofColumn w column (some c), ⟨[], []⟩, [], [], [],
        columnTests config (.ofColumn w column (some c)) (some c),
        declareMetrics (some (Text.lower column.name)) 0 c.sqlMetrics⟩ := by
  have hwanted : Wanted.ofColumn (.ofColumn w column (some c)) [] (some c) = ⟨[], [], []⟩ := by
    unfold Wanted.ofColumn
    dsimp only
    rw [hmetrics, hgroups]
    rfl
  have hdistributions : ∀ p conditions,
      distributionGroups w config source p conditions [] = [] := by
    intro p conditions
    cases conditions <;> rfl
  unfold planColumn
  simp only [h, hwanted, ColumnPlan.ofWanted_nil, ColumnPlan.empty, hdistributions]
  rfl

/-- The groups of a column run in the second phase. -/
theorem phase_of_mem_planColumn {g : GroupSpec}
    (h : g ∈ (planColumn w config source scanWide column).groups) : g.phase = .distribution := by
  change g ∈ distributionGroups w config source _
    (ColumnConditions.build w _ (config.column? column.name)) _ at h
  unfold distributionGroups at h
  split at h
  · exact (DistributionContext.cases_of_mem_groups h).1
  · cases h

/-- A flag that is settled with a column is that of its request. -/
theorem request_of_mem_flagged {key : MetricKey} {internal : Bool}
    (h : (key, internal) ∈ (planColumn w config source scanWide column).flagged) :
    key.column.isSome = true ∧ ∃ m, ⟨key, some m, internal⟩ ∈
        (planColumn w config source scanWide column).findings.requests := by
  have hcoherent := coherent_metricPlan w config scanWide column
  rcases List.mem_append.mp h with hg | hd
  · have hwanted := (entries_groups_planColumn w config source scanWide column).mem_iff.mp hg
    obtain ⟨d, hd, heq⟩ := List.mem_map.mp hwanted
    cases heq
    exact ⟨rfl, d.metric, List.mem_append_right _ (hcoherent.distributions d hd).2⟩
  · obtain ⟨d, hmem, heq⟩ := List.mem_map.mp hd
    cases heq
    obtain ⟨hkey, _, hr⟩ := hcoherent.derived d hmem
    refine ⟨?_, d.metric, List.mem_append_right _ hr⟩
    rw [hkey]
    rfl

end

end DataQuality
