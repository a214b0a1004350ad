import DataQuality.Proofs.Producers
import DataQuality.Proofs.Runs

/-!
# Clashes of custom queries

When a custom query writes a key that something else writes. It never meets another custom query, a
derived metric or a metric of a column. Three clashes remain: with itself, when it gives one name to
two columns of its result; with the number of rows, which joins the aggregates as soon as the query
requests it; and with the columns of the table, which the scan records on its own.
-/

namespace DataQuality

/-- The custom queries of a configuration, for the table and then for each column found. -/
def ScanConfiguration.customQueries (config : ScanConfiguration) (columns : List TableColumn) :
    List DeclaredMetric :=
  declareMetrics none 0 config.sqlMetrics ++ columns.flatMap fun c ↦
    declareMetrics (some (Text.lower c.name)) 0
      (((config.column? c.name).map ColumnSettings.sqlMetrics).getD [])

/-- The keys of the metrics of the catalog that a plan requests. -/
def Plan.catalogKeys (p : Plan) : List MetricKey :=
  (p.requests.filter fun r ↦ r.metric.isSome).map MetricRequest.key

/-- What custom queries bind is bound once in the whole plan, derived by nobody, and not what the
scan records on its own. -/
def Plan.KeepsCustomApart (p : Plan) : Prop :=
  ∀ g ∈ p.groups, g.phase = .custom → ∀ key ∈ g.keys,
    (p.groups.flatMap fun h ↦ h.keys).count key = 1 ∧
      key ∉ p.derived.map DerivedMetric.key ∧ key ≠ .ofTable schemaMetric

/-- Custom queries clash: one repeats itself, one counts rows where the catalog does not, or one
takes the name under which the columns of the table are recorded. -/
def OutputClash (requested : List MetricKey) (ds : List DeclaredMetric) : Prop :=
  RepeatsItself requested ds ∨
    (.ofTable Metric.rowCount.name ∉ requested ∧
      ∃ d ∈ ds, .ofTable Metric.rowCount.name ∈ d.outputKeys) ∨
    ∃ d ∈ ds, .ofTable schemaMetric ∈ d.outputKeys

/-! ### Sound configurations -/

private theorem flaw?_of_sqlMetricError? {place : SqlMetricPlace} {index : Nat}
    {ms : List SqlMetric} (h : sqlMetricError? place index ms = none) :
    ∀ m ∈ ms, m.flaw? = none := by
  induction ms generalizing index with
  | nil => simp
  | cons m rest ih =>
    unfold sqlMetricError? at h
    split at h
    · cases h
    · next hm => exact List.forall_mem_cons.mpr ⟨hm, ih h⟩

private theorem metric_of_mem_declareMetrics {column : Option String} {index : Nat}
    {ms : List SqlMetric} {d : DeclaredMetric} (h : d ∈ declareMetrics column index ms) :
    d.metric ∈ ms := by
  obtain ⟨-, i, -, hmetric⟩ := mem_declareMetrics h
  exact List.mem_of_getElem? hmetric

/-- No custom query of a sound configuration has a flaw. -/
theorem ScanConfiguration.flaw?_of_error? {config : ScanConfiguration} (h : config.error? = none)
    (columns : List TableColumn) : ∀ d ∈ config.customQueries columns, d.metric.flaw? = none := by
  unfold error? at h
  simp only [Option.orElse_eq_orElse, Option.orElse_eq_or, Option.or_eq_none_iff,
    List.findSome?_eq_none_iff] at h
  obtain ⟨_, _, _, htable, hcolumns⟩ := h
  intro d hd
  rcases List.mem_append.mp hd with hd | hd
  · exact flaw?_of_sqlMetricError? htable _ (metric_of_mem_declareMetrics hd)
  · obtain ⟨c, _, hd⟩ := List.mem_flatMap.mp hd
    have hmem := metric_of_mem_declareMetrics hd
    cases hsettings : config.column? c.name with
    | none => simp [hsettings] at hmem
    | some settings =>
      rw [hsettings, Option.map_some, Option.getD_some] at hmem
      have herror := hcolumns _ (Dict.mem_entries_iff.mpr hsettings)
      unfold ColumnSettings.error? at herror
      simp only [Option.orElse_eq_orElse, Option.orElse_eq_or, Option.or_eq_none_iff] at herror
      exact flaw?_of_sqlMetricError? herror.2.2.2.2 _ hmem

namespace Draft

variable {d : Draft}

theorem declared_eq (d : Draft) : d.declared = d.config.customQueries d.columns := by
  unfold declared ScanConfiguration.customQueries planned
  rw [List.flatMap_map]
  rfl

/-- The metrics of the catalog that a plan requests are those that it measures. -/
theorem mem_catalogKeys {key : MetricKey} :
    key ∈ d.plan.catalogKeys ↔ key ∈ d.measured.map MetricRequest.key := by
  unfold Plan.catalogKeys
  rw [plan_requests, List.mem_map]
  constructor
  · rintro ⟨r, hr, rfl⟩
    obtain ⟨hr, hmetric⟩ := List.mem_filter.mp hr
    exact (metric_isSome_iff hr).mp hmetric
  · intro hkey
    obtain ⟨r, hr, rfl⟩ := List.mem_map.mp (mem_keys_requests.mpr (.inl hkey))
    exact ⟨r, List.mem_filter.mpr ⟨hr, (metric_isSome_iff hr).mpr hkey⟩, rfl⟩

/-- Among what custom queries bind there is a clash exactly if the queries clash. -/
theorem outputClash_iff (hsound : ∀ m ∈ d.declared, m.metric.flaw? = none) :
    ¬ OutputClash d.plan.catalogKeys d.declared ↔
      d.customKeys.Nodup ∧ .ofTable Metric.rowCount.name ∉ d.customKeys ∧
        .ofTable schemaMetric ∉ d.customKeys := by
  have hschema : .ofTable schemaMetric ∉ d.measured.map MetricRequest.key := by
    intro hmem
    have heq := eq_rowCount_of_measured hmem rfl
    exact absurd heq (by decide)
  have hrepeats : RepeatsItself d.plan.catalogKeys d.declared ↔
      RepeatsItself (d.measured.map MetricRequest.key) d.declared := by
    unfold RepeatsItself
    simp only [mem_catalogKeys]
  unfold OutputClash
  rw [not_or, not_or, hrepeats, mem_catalogKeys]
  unfold customKeys customs
  rw [nodup_keys_planCustom hsound, mem_keys_planCustom_iff hsound,
    mem_keys_planCustom_iff hsound]
  refine and_congr_right fun _ ↦ and_congr_right fun _ ↦ not_congr ?_
  exact (and_iff_right hschema).symm

/-- The keys that a plan writes are those of its catalog part and of its custom queries. -/
theorem keys_produced_perm (d : Draft) :
    ((d.plan.groups.flatMap fun g ↦ g.keys) ++ d.plan.derived.map DerivedMetric.key).Perm
      (d.catalogEntries.map Prod.fst ++ d.customKeys) := by
  have hperm := d.produced_perm.map Prod.fst
  unfold Plan.produced at hperm
  simp only [List.map_append, List.map_flatMap, List.map_map, GroupSpec.map_fst_entries,
    keys_customGroups] at hperm
  exact hperm

/-- A plan writes each key once, counting the columns of the table, unless its custom queries
repeat a key, count the rows or take the name of those columns. -/
theorem nodup_written_iff (h : d.Distinct) :
    (.ofTable schemaMetric :: (d.plan.groups.flatMap fun g ↦ g.keys) ++
        d.plan.derived.map DerivedMetric.key).Nodup ↔
      d.customKeys.Nodup ∧ .ofTable Metric.rowCount.name ∉ d.customKeys ∧
        .ofTable schemaMetric ∉ d.customKeys := by
  have hschema : .ofTable schemaMetric ∉ d.catalogEntries.map Prod.fst := by
    rw [mem_keys_catalogEntries]
    rintro (hmeasured | ⟨heq, _⟩)
    · exact absurd (eq_rowCount_of_measured hmeasured rfl) (by decide)
    · exact absurd heq (by decide)
  rw [List.cons_append, (d.keys_produced_perm.cons _).nodup_iff, List.nodup_cons, List.mem_append,
    not_or, List.nodup_append]
  constructor
  · rintro ⟨⟨_, hcustom⟩, _, hnodup, hdisjoint⟩
    refine ⟨hnodup, ?_, hcustom⟩
    intro hrow
    exact hdisjoint _ (mem_keys_catalogEntries.mpr (.inr ⟨rfl, hrow⟩)) _ hrow rfl
  · rintro ⟨hnodup, hrow, hcustom⟩
    refine ⟨⟨hschema, hcustom⟩, nodup_keys_catalogEntries h, hnodup, ?_⟩
    rintro key hkey _ hmem rfl
    rcases mem_keys_catalogEntries.mp hkey with hmeasured | ⟨rfl, _⟩
    · exact not_measured_of_mem_customKeys hmem hmeasured
    · exact hrow hmem

/-- The keys of custom groups are those that custom queries bind. -/
theorem exists_custom_group_iff {key : MetricKey} :
    (∃ g ∈ d.plan.groups, g.phase = .custom ∧ key ∈ g.keys) ↔ key ∈ d.customKeys := by
  rw [← keys_customGroups, List.mem_flatMap, plan_groups]
  constructor
  · rintro ⟨g, hg, hphase, hkey⟩
    rcases List.mem_append.mp (mem_of_mem_numberGroups hg) with hcatalog | hcustom
    · exact absurd hphase (phase_of_mem_catalogGroups hcatalog)
    · exact ⟨g.toGroupSpec, hcustom, hkey⟩
  · rintro ⟨g, hg, hkey⟩
    obtain ⟨h, hh, rfl⟩ := exists_mem_numberGroups 0 (List.mem_append_right d.catalogGroups hg)
    exact ⟨h, hh, (phase_of_mem_customGroups hg).1, hkey⟩

/-- What custom queries bind is kept apart unless they repeat a key, count the rows or take the
name of the columns of the table. -/
theorem keepsCustomApart_iff :
    d.plan.KeepsCustomApart ↔
      d.customKeys.Nodup ∧ .ofTable Metric.rowCount.name ∉ d.customKeys ∧
        .ofTable schemaMetric ∉ d.customKeys := by
  have hgroups : (d.plan.groups.flatMap fun h ↦ h.keys) =
      d.catalogGroups.flatMap GroupSpec.keys ++ d.customKeys := by
    rw [plan_groups, flatMap_numberGroups, List.flatMap_append, keys_customGroups]
  have hcatalog : d.catalogEntries.map Prod.fst =
      d.catalogGroups.flatMap GroupSpec.keys ++ d.derived.map DerivedMetric.key := by
    simp only [catalogEntries, List.map_append, List.map_flatMap, List.map_map,
      GroupSpec.map_fst_entries]
    rfl
  constructor
  · intro h
    have hapart : ∀ key ∈ d.customKeys,
        (d.catalogGroups.flatMap GroupSpec.keys).count key + d.customKeys.count key = 1 ∧
          key ∉ d.derived.map DerivedMetric.key ∧ key ≠ .ofTable schemaMetric := by
      intro key hkey
      obtain ⟨g, hg, hphase, hmem⟩ := exists_custom_group_iff.mpr hkey
      have hone := h g hg hphase key hmem
      rw [hgroups, List.count_append] at hone
      exact hone
    refine ⟨?_, ?_, ?_⟩
    · rw [List.nodup_iff_count_le_one]
      intro key
      by_cases hkey : key ∈ d.customKeys
      · have hone := (hapart key hkey).1
        omega
      · rw [List.count_eq_zero.mpr hkey]
        exact Nat.zero_le 1
    · intro hrow
      obtain ⟨hone, hderived, _⟩ := hapart _ hrow
      have hmem := mem_keys_catalogEntries.mpr (.inr ⟨rfl, hrow⟩)
      rw [hcatalog] at hmem
      have hgroup := (List.mem_append.mp hmem).resolve_right hderived
      have hpos := List.count_pos_iff.mpr hgroup
      have hpos' := List.count_pos_iff.mpr hrow
      omega
    · intro hschema
      exact (hapart _ hschema).2.2 rfl
  · rintro ⟨hnodup, hrow, hschema⟩ g hg hphase key hmem
    have hkey := exists_custom_group_iff.mp ⟨g, hg, hphase, hmem⟩
    have habsent : key ∉ d.catalogEntries.map Prod.fst := by
      rw [mem_keys_catalogEntries]
      rintro (hmeasured | ⟨rfl, _⟩)
      · exact not_measured_of_mem_customKeys hkey hmeasured
      · exact hrow hkey
    rw [hcatalog, List.mem_append, not_or] at habsent
    refine ⟨?_, habsent.2, ?_⟩
    · rw [hgroups, List.count_append, List.count_eq_zero.mpr habsent.1, Nat.zero_add]
      exact List.count_eq_one_of_mem hnodup hkey
    · rintro rfl
      exact hschema hkey

end Draft

/-- Queries do not clash if each has outputs of different names, and none of them is the number of
rows or the name of the columns of the table. -/
theorem not_outputClash {requested : List MetricKey} {ds : List DeclaredMetric}
    (h : ∀ d ∈ ds, d.outputKeys.Nodup ∧ .ofTable Metric.rowCount.name ∉ d.outputKeys ∧
      .ofTable schemaMetric ∉ d.outputKeys) : ¬ OutputClash requested ds := by
  rintro (⟨before, d, after, key, rfl, hcount, _, _⟩ | ⟨_, d, hd, hrow⟩ | ⟨d, hd, hschema⟩)
  · have hnodup := (h d (by simp)).1
    have hle := List.nodup_iff_count_le_one.mp hnodup key
    omega
  · exact (h d hd).2.1 hrow
  · exact (h d hd).2.2 hschema

/-- For a sound configuration and columns with different names, custom queries write what nobody
else writes, and every scan of the plan is free of faults, exactly if the queries do not clash. -/
theorem Plan.keepsCustomApart_iff_not_outputClash {w : Warehouse} {cap : Nat}
    {config : ScanConfiguration} {columns : List TableColumn} {p : Plan}
    (hsound : config.error? = none) (hplan : config.plan w cap columns = .ok p)
    (hdistinct : (columns.map fun c ↦ Text.lower c.name).Nodup) :
    (p.KeepsCustomApart ↔ ¬ OutputClash p.catalogKeys (config.customQueries columns)) ∧
      ∀ (s : Session) (scan : Scan) (result : ScanResult), (scan.execute s p).2 = .ok result →
        (result.faults = [] ↔ ¬ OutputClash p.catalogKeys (config.customQueries columns)) := by
  obtain ⟨_, source, _, rfl⟩ := ScanConfiguration.plan_eq_ok_iff.mp hplan
  let d : Draft := ⟨w, cap, config, columns, source⟩
  have hd : d.Distinct := hdistinct
  have hflaws : ∀ m ∈ d.declared, m.metric.flaw? = none := by
    rw [d.declared_eq]
    exact config.flaw?_of_error? hsound columns
  have hclash := Draft.outputClash_iff hflaws
  rw [d.declared_eq] at hclash
  refine ⟨Draft.keepsCustomApart_iff.trans hclash.symm, ?_⟩
  intro s scan result hresult
  rw [Scan.faults_eq_nil_iff hresult, Draft.flatMap_groupsIn]
  exact (Draft.nodup_written_iff hd).trans hclash.symm

/-- A custom query that gives names to the columns of its result. -/
def tallyQuery (names : List String) : SqlMetric :=
  { SqlMetric.numeric "SELECT 4, 2" with metricNames := some names }

/-- A table of orders of which only a custom query is asked. -/
def tallyConfiguration (names : List String) : ScanConfiguration :=
  { ScanConfiguration.ofTable "orders" with sqlMetrics := [tallyQuery names] }

/-- The only column of the table of orders. -/
def tallyColumns : List TableColumn := [⟨"id", "integer", false⟩]

/-- A session in which every query is answered with one row. -/
def tallySession : Session := ⟨fun _ _ ↦ .ok ⟨["a", "b"], [[.int 4, .int 2]]⟩, none⟩

/-- A custom query whose outputs have names of their own is kept apart, and its scan is free of
faults. -/
theorem tallyConfiguration_keepsCustomApart :
    (tallyConfiguration ["open", "closed"]).error? = none ∧
      (tallyColumns.map fun c ↦ Text.lower c.name).Nodup ∧
      ∃ p, (tallyConfiguration ["open", "closed"]).plan .postgreSQL 0 tallyColumns = .ok p ∧
        p.KeepsCustomApart ∧
        ∀ (s : Session) (scan : Scan) (result : ScanResult), (scan.execute s p).2 = .ok result →
          result.faults = [] := by
  have hsound : (tallyConfiguration ["open", "closed"]).error? = none := by decide +kernel
  have hdistinct : (tallyColumns.map fun c ↦ Text.lower c.name).Nodup := by decide
  obtain ⟨p, hplan⟩ :
      ∃ p, (tallyConfiguration ["open", "closed"]).plan .postgreSQL 0 tallyColumns = .ok p :=
    ScanConfiguration.exists_plan (by decide) rfl
  have hclash : ¬ OutputClash p.catalogKeys
      ((tallyConfiguration ["open", "closed"]).customQueries tallyColumns) :=
    not_outputClash (by decide)
  obtain ⟨happart, hfaults⟩ :=
    Plan.keepsCustomApart_iff_not_outputClash hsound hplan hdistinct
  exact ⟨hsound, hdistinct, p, hplan, happart.mpr hclash,
    fun s scan result hresult ↦ (hfaults s scan result hresult).mpr hclash⟩

/-- The configuration with the names is sound, and still its custom query writes what is written
already and its scan has a fault. -/
def TallyClashes (names : List String) : Prop :=
  (tallyConfiguration names).error? = none ∧
    (tallyColumns.map fun c ↦ Text.lower c.name).Nodup ∧
    ∃ p, (tallyConfiguration names).plan .postgreSQL 0 tallyColumns = .ok p ∧
      ¬ p.KeepsCustomApart ∧
      ∃ result, ((Scan.ofConfiguration .postgreSQL (tallyConfiguration names)).execute
        tallySession p).2 = .ok result ∧ result.faults ≠ []

/-- A clash among the names shows in the plan and in the scan, if nothing was requested. -/
private theorem tallyClashes_of_outputClash {names : List String}
    (hsound : (tallyConfiguration names).error? = none)
    (hclash : OutputClash [] [⟨none, 0, tallyQuery names⟩]) : TallyClashes names := by
  have hdistinct : (tallyColumns.map fun c ↦ Text.lower c.name).Nodup := by decide
  obtain ⟨p, hplan⟩ : ∃ p, (tallyConfiguration names).plan .postgreSQL 0 tallyColumns = .ok p :=
    ScanConfiguration.exists_plan rfl rfl
  obtain ⟨_, source, _, rfl⟩ := ScanConfiguration.plan_eq_ok_iff.mp hplan
  let d : Draft := ⟨.postgreSQL, 0, tallyConfiguration names, tallyColumns, source⟩
  have hflaws : ∀ m ∈ d.declared, m.metric.flaw? = none := by
    rw [d.declared_eq]
    exact d.config.flaw?_of_error? hsound _
  have hnothing : d.plan.catalogKeys = [] := by
    rw [List.eq_nil_iff_forall_not_mem]
    intro key
    rw [Draft.mem_catalogKeys, Draft.measured_of_nothing rfl rfl rfl]
    exact List.not_mem_nil
  have hqueries : d.declared = [⟨none, 0, tallyQuery names⟩] := by
    rw [d.declared_eq]
    rfl
  rw [← hnothing, ← hqueries] at hclash
  have hnot := mt (Draft.outputClash_iff hflaws).mpr (not_not.mpr hclash)
  have hkeeps : tallySession.KeepsConnection := by
    intro asked sql e h
    cases h
  have hstage : (Scan.ofConfiguration .postgreSQL (tallyConfiguration names)).stage =
      .initialized := rfl
  obtain ⟨result, hresult⟩ := Scan.exists_result (p := d.plan) hkeeps hstage
  refine ⟨hsound, hdistinct, _, hplan, ?_, result, hresult, ?_⟩
  · rw [Draft.keepsCustomApart_iff]
    exact hnot
  · rw [ne_eq, Scan.faults_eq_nil_iff hresult, Draft.flatMap_groupsIn]
    exact mt (Draft.nodup_written_iff (show d.Distinct from hdistinct)).mp hnot

/-- A custom query clashes if it repeats a name, counts the rows or takes the name of the columns of
the table. -/
theorem tallyClashes_of_names :
    TallyClashes ["a", "a"] ∧ TallyClashes ["row_count", "b"] ∧ TallyClashes ["schema", "b"] := by
  refine ⟨?_, ?_, ?_⟩
  · apply tallyClashes_of_outputClash (by decide +kernel)
    exact .inl ⟨[], _, [], .ofTable "a", rfl, by decide, List.not_mem_nil, by simp⟩
  · apply tallyClashes_of_outputClash (by decide +kernel)
    exact .inr (.inl ⟨List.not_mem_nil, _, List.mem_singleton_self _, by decide⟩)
  · apply tallyClashes_of_outputClash (by decide +kernel)
    exact .inr (.inr ⟨_, List.mem_singleton_self _, by decide⟩)

end DataQuality
