import DataQuality.Proofs.Drafts

/-!
# Producers

What a plan produces is what its groups bind and what is derived. Without custom queries that is
what was requested, each key from one producer and with the flag of its request.
-/

namespace DataQuality

/-- Everything that a plan produces, each key with its flag. -/
def Plan.produced (p : Plan) : List (MetricKey × Bool) :=
  (p.groups.flatMap fun g ↦ g.entries) ++ p.derived.map fun d ↦ (d.key, d.internal)

/-- No custom query is declared, neither for the table nor for a column. -/
def ScanConfiguration.IsCatalogOnly (config : ScanConfiguration) : Prop :=
  config.sqlMetrics = [] ∧ ∀ entry ∈ config.columns.entries, entry.2.sqlMetrics = []

namespace Draft

/-- The plan of a draft produces its catalog part and what custom queries bind. -/
theorem produced_perm (d : Draft) :
    d.plan.produced.Perm (d.catalogEntries ++ d.customGroups.flatMap GroupSpec.entries) := by
  unfold Plan.produced catalogEntries
  rw [plan_groups, plan_derived, flatMap_numberGroups, List.flatMap_append, List.append_assoc,
    List.append_assoc]
  exact List.Perm.append_left _ List.perm_append_comm

/-- The keys of the groups of custom queries are those that the queries bind. -/
theorem keys_customGroups (d : Draft) : d.customGroups.flatMap GroupSpec.keys = d.customKeys := by
  rw [customGroups, List.flatMap_assoc]
  rfl

/-- No two groups of custom queries bind the same key. -/
theorem pairwise_disjoint_customGroups (d : Draft) :
    d.customGroups.Pairwise fun g h ↦ g.keys.Disjoint h.keys := by
  have hkeys : ∀ {c : CustomPlan} {g}, g ∈ c.group.toList → g.keys = c.keys := by
    intro c g hg
    rw [CustomPlan.keys, Option.mem_toList.mp hg]
    simp
  unfold customGroups
  rw [List.pairwise_flatMap]
  constructor
  · intro c _
    cases c.group <;> simp
  · refine pairwise_disjoint_planCustom.imp ?_
    intro c e hdisjoint g hg k hk
    rw [hkeys hg, hkeys hk]
    exact hdisjoint

/-- A configuration with metrics of the catalog only has no custom query to plan. -/
theorem customs_eq_nil {d : Draft} (h : d.config.IsCatalogOnly) : d.customs = [] := by
  have hcolumns : d.planned.flatMap PlannedColumn.customs = [] := by
    rw [List.flatMap_eq_nil_iff]
    intro c hc
    obtain ⟨column, _, rfl⟩ := List.mem_map.mp hc
    change declareMetrics _ 0 (((d.config.column? column.name).map ColumnSettings.sqlMetrics).getD
      []) = []
    cases hsettings : d.config.column? column.name with
    | none => rfl
    | some settings =>
      have hnone := h.2 _ (Dict.mem_entries_iff.mpr hsettings)
      rw [Option.map_some, Option.getD_some, hnone]
      rfl
  unfold customs declared
  rw [hcolumns, h.1]
  rfl

end Draft

/-- Without custom queries, and if the columns have different names, a plan produces each key once,
just the keys that are requested, and each with the flag of its request. -/
theorem Plan.produces_requests_once {w : Warehouse} {cap : Nat} {config : ScanConfiguration}
    {columns : List TableColumn} {p : Plan} (hplan : config.plan w cap columns = .ok p)
    (hcatalog : config.IsCatalogOnly)
    (hdistinct : (columns.map fun c ↦ Text.lower c.name).Nodup) :
    (p.produced.map Prod.fst).Nodup ∧
      (p.produced.map Prod.fst).Perm (p.requests.map MetricRequest.key) ∧
      ∀ entry ∈ p.produced, ∃ r, p.request? entry.1 = some r ∧ entry.2 = r.internal := by
  obtain ⟨_, source, _, rfl⟩ := ScanConfiguration.plan_eq_ok_iff.mp hplan
  let d : Draft := ⟨w, cap, config, columns, source⟩
  have hd : d.Distinct := hdistinct
  have hcustoms : d.customs = [] := Draft.customs_eq_nil hcatalog
  have hkeys : d.customKeys = [] := by
    rw [Draft.customKeys, hcustoms, List.flatMap_nil]
  have hproduced : d.plan.produced.Perm d.catalogEntries := by
    have hperm := d.produced_perm
    rw [Draft.customGroups, hcustoms, List.flatMap_nil, List.flatMap_nil, List.append_nil] at hperm
    exact hperm
  have hnodup := Draft.nodup_keys_catalogEntries hd
  have hrequests : (d.requests.map MetricRequest.key).Nodup := nodup_keys_mergeRequests _
  refine ⟨?_, ?_, ?_⟩
  · exact (hproduced.map Prod.fst).nodup_iff.mpr hnodup
  · refine (hproduced.map Prod.fst).trans ?_
    rw [Draft.plan_requests, List.perm_ext_iff_of_nodup hnodup hrequests]
    intro key
    rw [Draft.mem_keys_catalogEntries, Draft.mem_keys_requests, hkeys]
    simp
  · rintro ⟨key, internal⟩ hmem
    have hcatalogMem := hproduced.mem_iff.mp hmem
    obtain ⟨r, hr, hkey, hflag⟩ := Draft.request_of_mem_catalogEntries hd hcatalogMem
    refine ⟨r, ?_, hflag.symm⟩
    change d.requests.find? (fun r ↦ r.key = key) = some r
    rw [← hkey]
    exact find?_key_of_mem hrequests hr

/-- A table of orders, of which percentages, a histogram and what a column asks are measured. -/
def ordersConfiguration : ScanConfiguration :=
  { ScanConfiguration.ofTable "orders" with
    metrics := ["row_count", "missing_percentage", "histogram"]
    columns := Dict.empty.insert "email" { ColumnSettings.empty with metrics := ["uniqueness"] } }

/-- The columns of the table of orders. -/
def ordersColumns : List TableColumn :=
  [⟨"id", "integer", false⟩, ⟨"Email", "varchar", true⟩]

/-- The plan of the table of orders produces each key that it requests once. -/
theorem ordersConfiguration_produces_requests_once :
    ∃ p, ordersConfiguration.plan .postgreSQL 2 ordersColumns = .ok p ∧
      ordersConfiguration.IsCatalogOnly ∧
      (ordersColumns.map fun c ↦ Text.lower c.name).Nodup ∧
      (p.produced.map Prod.fst).Nodup ∧
      (p.produced.map Prod.fst).Perm (p.requests.map MetricRequest.key) ∧
      ∀ entry ∈ p.produced, ∃ r, p.request? entry.1 = some r ∧ entry.2 = r.internal := by
  obtain ⟨p, hplan⟩ : ∃ p, ordersConfiguration.plan .postgreSQL 2 ordersColumns = .ok p :=
    ScanConfiguration.exists_plan (by decide) rfl
  have hcatalog : ordersConfiguration.IsCatalogOnly := ⟨rfl, by decide⟩
  have hdistinct : (ordersColumns.map fun c ↦ Text.lower c.name).Nodup := by decide
  exact ⟨p, hplan, hcatalog, hdistinct, Plan.produces_requests_once hplan hcatalog hdistinct⟩

end DataQuality
