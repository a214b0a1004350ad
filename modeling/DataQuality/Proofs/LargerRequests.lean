import Mathlib.Data.List.Flatten
import DataQuality.Proofs.BoundTests
import DataQuality.Proofs.NameLists
import DataQuality.Proofs.RequestedMetrics

/-!
# Larger requests

Asking for more never takes anything away. Every stage of planning keeps this: what names stand for,
what it takes to have it, what can be had of a column, which requests are internal, and which
measurement a name in a test stands for. The last stage is where a request could get in the way of
another; it does not, as a name stands for at most one measurement of the catalog.
-/

namespace DataQuality

/-- What one column asks of the catalog is asked by another with the same settings as well. -/
abbrev ColumnSettings.AsksNoMore : ColumnSettings → ColumnSettings → Prop :=
  EqBesidesNames (fun l l' ↦ l ⊆ l') (fun l l' ↦ l ⊆ l')

/-- What one configuration asks of the catalog is asked by another, which is the same otherwise. -/
abbrev ScanConfiguration.AsksNoMore : ScanConfiguration → ScanConfiguration → Prop :=
  EqBesidesNames (fun l l' ↦ l ⊆ l') (fun l l' ↦ l ⊆ l')

/-! ### Requests -/

/-- Requests cover others if they request the same keys, and report those that the others report. -/
def Covers (requests others : List MetricRequest) : Prop :=
  ∀ r ∈ others, ∃ q ∈ requests, q.key = r.key ∧ (r.internal = false → q.internal = false)

namespace Covers

variable {requests requests' others others' : List MetricRequest} {r : MetricRequest}

theorem of_subset (h : others ⊆ requests) : Covers requests others :=
  fun r hr ↦ ⟨r, h hr, rfl, id⟩

theorem append (h : Covers requests others) (h' : Covers requests' others') :
    Covers (requests ++ requests') (others ++ others') := by
  intro r hr
  rcases List.mem_append.mp hr with hr | hr
  · obtain ⟨q, hq, hqr⟩ := h r hr
    exact ⟨q, List.mem_append_left _ hq, hqr⟩
  · obtain ⟨q, hq, hqr⟩ := h' r hr
    exact ⟨q, List.mem_append_right _ hq, hqr⟩

theorem cons (h : Covers requests others) {q : MetricRequest} (hkey : q.key = r.key)
    (hflag : r.internal = false → q.internal = false) :
    Covers (q :: requests) (r :: others) := by
  have hone : Covers [q] [r] := by
    intro x hx
    rw [List.mem_singleton.mp hx]
    exact ⟨q, List.mem_singleton_self q, hkey, hflag⟩
  exact hone.append h

theorem cons_left (h : Covers requests others) (q : MetricRequest) :
    Covers (q :: requests) others := by
  intro r hr
  obtain ⟨x, hx, hxr⟩ := h r hr
  exact ⟨x, List.mem_cons_of_mem _ hx, hxr⟩

theorem flatMap {α : Type} {l : List α} {f g : α → List MetricRequest}
    (h : ∀ a ∈ l, Covers (f a) (g a)) : Covers (l.flatMap f) (l.flatMap g) := by
  intro r hr
  obtain ⟨a, ha, hr⟩ := List.mem_flatMap.mp hr
  obtain ⟨q, hq, hqr⟩ := h a ha r hr
  exact ⟨q, List.mem_flatMap.mpr ⟨a, ha, hq⟩, hqr⟩

/-- What is covered is requested. -/
theorem keys (h : Covers requests others) :
    others.map MetricRequest.key ⊆ requests.map MetricRequest.key := by
  intro key hkey
  obtain ⟨r, hr, rfl⟩ := List.mem_map.mp hkey
  obtain ⟨q, hq, hqr, -⟩ := h r hr
  exact hqr ▸ List.mem_map_of_mem hq

/-- Merged requests cover what the requests covered. -/
theorem merge (h : Covers requests others) :
    Covers (mergeRequests requests) (mergeRequests others) := by
  intro r hr
  have hkey : r.key ∈ (mergeRequests requests).map MetricRequest.key :=
    mem_keys_mergeRequests.mpr (h.keys (mem_keys_mergeRequests.mp (List.mem_map_of_mem hr)))
  obtain ⟨q, hq, hqr⟩ := List.mem_map.mp hkey
  refine ⟨q, hq, hqr, fun hflag ↦ ?_⟩
  -- One of the requests of the key was for its own sake, and it is covered by another one.
  obtain ⟨x, hx, hxr, hxflag⟩ : ∃ x ∈ others, x.key = r.key ∧ x.internal = false := by
    by_contra hnone
    have hall := (internal_iff_of_mem_mergeRequests hr).mpr fun x hx hxr ↦ by
      by_contra hx'
      exact hnone ⟨x, hx, hxr, by simpa using hx'⟩
    rw [hflag] at hall
    cases hall
  obtain ⟨y, hy, hyx, hyflag⟩ := h x hx
  by_contra hinternal
  have hall := (internal_iff_of_mem_mergeRequests hq).mp (by simpa using hinternal) y hy
    (hyx.trans (hxr.trans hqr.symm))
  rw [hyflag hxflag] at hall
  cases hall

end Covers

/-! ### The metrics of a column -/

theorem NamesMetric.mono {names names' : List String} (h : names ⊆ names') {m : Metric}
    (hm : NamesMetric names m) : NamesMetric names' m := by
  obtain ⟨name, hname, heq⟩ := hm
  exact ⟨name, h hname, heq⟩

theorem NamesGroupOf.mono {names names' : List String} (h : names ⊆ names') {m : Metric}
    (hm : NamesGroupOf names m) : NamesGroupOf names' m := by
  obtain ⟨name, hname, hg⟩ := hm
  exact ⟨name, h hname, hg⟩

theorem Selection.metrics_mono {names names' groups groups' : List String} (h : names ⊆ names')
    (hgroups : groups ⊆ groups') :
    (Selection.ofNames names groups).metrics ⊆ (Selection.ofNames names' groups').metrics := by
  intro m hm
  rw [Selection.mem_ofNames] at hm ⊢
  exact hm.imp (.mono h) (.mono hgroups)

/-- What can be had when less is available can be had when more is. -/
theorem producer_mono {w : Warehouse} {p : ColumnProfile}
    {conditions : Except DialectError ColumnConditions} {available available' : List Metric}
    (h : available ⊆ available') {m : Metric} {how : Producer}
    (hhow : producer w p conditions available m = .ok how) :
    producer w p conditions available' m = .ok how := by
  have hneeds := (producer_cases hhow).1
  have hnone : ∀ {available : List Metric}, (∀ d ∈ m.dependencies, d ∈ available) →
      (m.dependencies.find? fun d ↦ !available.contains d) = none := by
    intro available hall
    exact List.find?_eq_none.mpr fun d hd ↦ by simp [hall d hd]
  unfold producer at hhow ⊢
  rw [hnone hneeds] at hhow
  rw [hnone fun d hd ↦ h (hneeds d hd)]
  exact hhow

namespace ColumnPlan

variable {w : Warehouse} {p : ColumnProfile} {conditions : Except DialectError ColumnConditions}

/-- What is covered without a metric is covered with it, if it is covered whatever more is
available. -/
theorem covers_ofMetrics_cons {available : List Metric} {r : ResolvedMetric}
    {rest : List ResolvedMetric} {others : List MetricRequest}
    (h : ∀ available', available ⊆ available' →
      Covers (ofMetrics w p conditions available' rest).findings.requests others) :
    Covers (ofMetrics w p conditions available (r :: rest)).findings.requests others := by
  have hmore := h (r.metric :: available) (List.subset_cons_self _ _)
  unfold ofMetrics
  split
  · next hrow => exact (hrow ▸ hmore).cons_left _
  · split
    · rw [findings_produce]
      exact hmore.cons_left _
    · rw [requests_drop]
      exact h available (List.Subset.refl _)

/-- In catalog order, more metrics come to more requests. -/
theorem covers_ofMetrics {available available' : List Metric} (h : available ⊆ available')
    {taken taken' internal internal' : Metric → Bool} (htaken : ∀ m, taken m → taken' m)
    (hinternal : ∀ m, internal m = false → internal' m = false) (ms : List Metric) :
    Covers
      (ofMetrics w p conditions available'
        ((ms.filter taken').map fun m ↦ ⟨m, internal' m⟩)).findings.requests
      (ofMetrics w p conditions available
        ((ms.filter taken).map fun m ↦ ⟨m, internal m⟩)).findings.requests := by
  induction ms generalizing available available' with
  | nil => exact .of_subset (List.Subset.refl _)
  | cons m rest ih =>
    by_cases hm : taken m = true
    · rw [List.filter_cons_of_pos hm, List.filter_cons_of_pos (htaken m hm), List.map_cons,
        List.map_cons]
      by_cases hrow : m = .rowCount
      · simp only [ofMetrics, hrow, if_true]
        exact (ih (List.cons_subset_cons _ h)).cons rfl id
      · cases hhow : producer w p conditions available m with
        | ok how =>
          simp only [ofMetrics, hrow, if_false, hhow, producer_mono h hhow, findings_produce]
          exact (ih (List.cons_subset_cons _ h)).cons rfl (hinternal m)
        | error o =>
          refine covers_ofMetrics_cons fun available'' hmore ↦ ?_
          simp only [ofMetrics, hrow, if_false, hhow, requests_drop]
          exact ih (List.Subset.trans h hmore)
    · rw [List.filter_cons_of_neg hm]
      by_cases hm' : taken' m = true
      · rw [List.filter_cons_of_pos hm', List.map_cons]
        exact covers_ofMetrics_cons fun available'' hmore ↦ ih (List.Subset.trans h hmore)
      · rw [List.filter_cons_of_neg hm']
        exact ih h

/-- More that is wanted of a column comes to more requests. -/
theorem covers_ofWanted {metrics metrics' : List Metric} (h : metrics ⊆ metrics') :
    Covers (ofWanted w p conditions metrics').findings.requests
      (ofWanted w p conditions metrics).findings.requests := by
  obtain ⟨closure, hresolve, hmem⟩ := exists_resolve_eq metrics
  obtain ⟨closure', hresolve', hmem'⟩ := exists_resolve_eq metrics'
  have himplied : ∀ m ∈ Metric.withImplied metrics, m ∈ Metric.withImplied metrics' := by
    intro m hm
    rw [Metric.mem_withImplied] at hm ⊢
    exact hm.imp (@h m) fun ⟨r, hr, hmr⟩ ↦ ⟨r, h hr, hmr⟩
  unfold ofWanted
  rw [hresolve, hresolve']
  refine covers_ofMetrics (List.Subset.refl _) (fun m hm ↦ ?_) (fun m hm ↦ ?_) Metric.all
  · rw [List.contains_iff_mem, hmem] at hm
    rw [List.contains_iff_mem, hmem']
    exact hm.induction (fun r hr ↦ .root (himplied r hr)) fun a ha d hd ↦ .step ha hd
  · have hasked : m ∈ metrics := by simpa using hm
    simpa using h hasked

end ColumnPlan

/-- More is wanted of a column whose settings, or the whole scan, ask for more. -/
theorem Wanted.ofColumn_mono (p : ColumnProfile) {scanWide scanWide' : List Metric}
    (hscan : scanWide ⊆ scanWide') {o o' : Option ColumnSettings}
    (h : Option.Rel ColumnSettings.AsksNoMore o o') :
    (ofColumn p scanWide o).metrics ⊆ (ofColumn p scanWide' o').metrics ∧
      (ofColumn p scanWide o).findings.requests ⊆ (ofColumn p scanWide' o').findings.requests := by
  have hnames : ∀ m, (∃ s, o = some s ∧ (NamesMetric s.metrics m ∨ NamesGroupOf s.metricGroups m)) →
      ∃ s, o' = some s ∧ (NamesMetric s.metrics m ∨ NamesGroupOf s.metricGroups m) := by
    rintro m ⟨s, rfl, hm⟩
    obtain ⟨h⟩ := h
    exact ⟨_, rfl, hm.imp (.mono h.metrics) (.mono h.groups)⟩
  constructor
  · intro m hm
    rw [mem_metrics] at hm ⊢
    exact ⟨hm.1, hm.2.1, hm.2.2.imp (@hscan m) (hnames m)⟩
  · intro r hr
    obtain rfl := eq_rowCountRequest hr
    rw [rowCountRequest_mem] at hr ⊢
    exact hnames _ hr

section

variable {c c' : ScanConfiguration} (h : c.AsksNoMore c')
include h

theorem covers_planColumn (w : Warehouse) (source : QuerySource) {scanWide scanWide' : List Metric}
    (hscan : scanWide ⊆ scanWide') (column : TableColumn) :
    Covers (planColumn w c' source scanWide' column).findings.requests
      (planColumn w c source scanWide column).findings.requests := by
  have hrel := h.column? column.name
  have hprofile := ColumnProfile.ofColumn_congr hrel w column
  have hconditions := ColumnConditions.build_congr hrel w
  obtain ⟨hmetrics, hrequests⟩ := Wanted.ofColumn_mono
    (ColumnProfile.ofColumn w column (c'.column? column.name)) hscan hrel
  simp only [planColumn, hprofile, hconditions]
  exact (Covers.of_subset hrequests).append (ColumnPlan.covers_ofWanted hmetrics)

/-- Custom queries are not asked of the catalog. -/
theorem ScanConfiguration.IsCatalogOnly.of_asksNoMore (hcatalog : c.IsCatalogOnly) :
    c'.IsCatalogOnly := by
  refine ⟨h.sqlMetrics_eq ▸ hcatalog.1, fun entry hentry ↦ ?_⟩
  have hrel := h.columns entry.1
  rw [Dict.mem_entries_iff.mp hentry] at hrel
  generalize hsettings : c.columns.get? entry.1 = o at hrel
  obtain ⟨hs⟩ := hrel
  rw [hs.rest]
  exact hcatalog.2 _ (Dict.mem_entries_iff.mpr hsettings)

end

/-! ### Names in tests -/

/-- The keys of the catalog: that of the number of rows, and those of the metrics of columns. -/
def MetricKey.IsCatalog (key : MetricKey) : Prop :=
  key = .ofTable Metric.rowCount.name ∨
    ∃ column, ∃ m : Metric, m ≠ .rowCount ∧ key = .ofColumn column m.name

/-- The names of metrics are in lower case. -/
theorem Metric.lower_name (m : Metric) : Text.lower m.name = m.name := by
  refine Text.lower_of_ascii ?_
  cases m <;> decide +kernel

namespace MetricKey.IsCatalog

variable {key key' : MetricKey}

theorem lower_name (h : key.IsCatalog) : Text.lower key.name = key.name := by
  obtain rfl | ⟨column, m, -, rfl⟩ := h
  · exact Metric.lower_name .rowCount
  · exact Metric.lower_name m

/-- Keys with the same name are all about the table or all about columns. -/
theorem column_eq_none (h : key.IsCatalog) (h' : key'.IsCatalog) (hname : key.name = key'.name)
    (hcolumn : key.column = none) : key'.column = none := by
  obtain rfl | ⟨column, m, -, rfl⟩ := h
  · obtain rfl | ⟨column, m, hm, rfl⟩ := h'
    · rfl
    · have hrow : Metric.rowCount.name = m.name := hname
      exact absurd (Metric.name_inj.mp hrow).symm hm
  · cases hcolumn

end MetricKey.IsCatalog

namespace TestScope

variable {scope : TestScope} {available available' : List MetricKey} {name : String}
  {key key' : MetricKey}

/-- The keys that a name may stand for differ in the letter case of their names, and in whether
they are about a column, which is always the same one. -/
theorem cases_of_mem_candidates (scope : TestScope) (name : String) :
    ∃ column lowered, ∀ key ∈ scope.candidates name,
      Text.lower key.name = lowered ∧ (key.column = none ∨ key.column = some column) := by
  unfold candidates
  cases Text.cut '.' name.toList with
  | some parts =>
    refine ⟨Text.lower (String.ofList parts.1), Text.lower (String.ofList parts.2), ?_⟩
    simp [MetricKey.ofColumn]
  | none =>
    refine ⟨scope.column.getD "", Text.lower name, ?_⟩
    cases scope.column <;> simp [MetricKey.ofColumn, MetricKey.ofTable]

/-- A name stands for at most one measurement of the catalog. -/
theorem eq_of_mem_candidates (h : key ∈ scope.candidates name) (h' : key' ∈ scope.candidates name)
    (hkey : key.IsCatalog) (hkey' : key'.IsCatalog) : key = key' := by
  obtain ⟨column, lowered, hcandidates⟩ := cases_of_mem_candidates scope name
  obtain ⟨hlower, hcolumn⟩ := hcandidates key h
  obtain ⟨hlower', hcolumn'⟩ := hcandidates key' h'
  have hname : key.name = key'.name := by
    rw [← hkey.lower_name, ← hkey'.lower_name, hlower, hlower']
  have hsame : key.column = key'.column := by
    rcases hcolumn with hnone | hsome
    · rw [hnone, hkey.column_eq_none hkey' hname hnone]
    · rcases hcolumn' with hnone | hsome'
      · rw [hnone, hkey'.column_eq_none hkey hname.symm hnone]
      · rw [hsome, hsome']
  cases key
  cases key'
  exact congrArg₂ MetricKey.mk hsame hname

/-- Where measurements of the catalog only are available, a name stands for the same one when more
are. -/
theorem resolve?_mono (houtputs : scope.outputs = []) (hsub : available ⊆ available')
    (hcatalog : ∀ key ∈ available', key.IsCatalog) (h : scope.resolve? available name = some key) :
    scope.resolve? available' name = some key := by
  unfold resolve? at h ⊢
  rw [houtputs] at h ⊢
  change (scope.candidates name).find? (fun key ↦ available.contains key) = some key at h
  change (scope.candidates name).find? (fun key ↦ available'.contains key) = some key
  have hkey : key ∈ available' := hsub (by simpa using List.find?_some h)
  have hcandidate := List.mem_of_find?_eq_some h
  obtain ⟨found, hfound⟩ : ∃ found,
      (scope.candidates name).find? (fun key ↦ available'.contains key) = some found := by
    rw [← Option.isSome_iff_exists, List.find?_isSome]
    exact ⟨key, hcandidate, by simpa using hkey⟩
  have hfound' : found ∈ available' := by simpa using List.find?_some hfound
  rw [hfound, eq_of_mem_candidates (List.mem_of_find?_eq_some hfound) hcandidate
    (hcatalog _ hfound') (hcatalog _ hkey)]

section

variable (houtputs : scope.outputs = []) (hgrouped : scope.grouped = none)
  (hsub : available ⊆ available') (hcatalog : ∀ key ∈ available', key.IsCatalog)
include houtputs hgrouped hsub hcatalog

/-- A test that compiles where less is available compiles to the same where more is. -/
theorem compileOne_mono {index : Nat} {source : String} {t : CompiledTest}
    (h : scope.compileOne available index source = .ok t) :
    scope.compileOne available' index source = .ok t := by
  obtain ⟨expression, hparse, hunresolved, rfl⟩ := compileOne_eq_ok_iff.mp h
  have hresolved : ∀ name ∈ expression.identifiers, ∃ key,
      scope.resolve? available name = some key ∧ scope.resolve? available' name = some key := by
    intro name hname
    obtain ⟨key, hkey⟩ := Option.isSome_iff_exists.mp
      (unresolved_eq_nil_iff.mp hunresolved hgrouped name hname)
    exact ⟨key, hkey, resolve?_mono houtputs hsub hcatalog hkey⟩
  have hunresolved' : scope.unresolved available' expression.identifiers = [] := by
    refine unresolved_eq_nil_iff.mpr fun _ name hname ↦ ?_
    obtain ⟨key, -, hkey⟩ := hresolved name hname
    rw [hkey]
    rfl
  have hbindings : scope.bindings available expression.identifiers =
      scope.bindings available' expression.identifiers := by
    unfold bindings
    refine congrArg (fun bindings ↦ if scope.grouped.isSome then _ else Dict.ofList bindings)
      (List.filterMap_congr fun name hname ↦ ?_)
    obtain ⟨key, hkey, hkey'⟩ := hresolved name hname
    rw [hkey, hkey']
  exact compileOne_eq_ok_iff.mpr ⟨expression, hparse, hunresolved', by rw [hbindings]⟩

/-- Of a list of tests no fewer compile where more is available. -/
theorem compileFrom_mono {index : Nat} (sources : List String) :
    (successes (scope.compileFrom available index sources)).Sublist
      (successes (scope.compileFrom available' index sources)) := by
  induction sources generalizing index with
  | nil => exact .refl _
  | cons source rest ih =>
    unfold compileFrom
    cases hone : scope.compileOne available index source with
    | ok t =>
      rw [compileOne_mono houtputs hgrouped hsub hcatalog hone]
      exact ih.cons_cons t
    | error e =>
      cases scope.compileOne available' index source with
      | ok t => exact ih.cons t
      | error e' => exact ih

end

end TestScope

/-- Of tests that are declared without a custom query no fewer compile where more is available. -/
theorem DeclaredTests.compile_mono {available available' : List MetricKey}
    (hsub : available ⊆ available') (hcatalog : ∀ key ∈ available', key.IsCatalog)
    {tests : List DeclaredTests}
    (hscope : ∀ b ∈ tests, b.scope.outputs = [] ∧ b.scope.grouped = none) :
    (successes (tests.flatMap fun b ↦ b.compile available)).Sublist
      (successes (tests.flatMap fun b ↦ b.compile available')) := by
  rw [successes, successes, List.filterMap_flatMap, List.filterMap_flatMap]
  refine .flatMap_right _ fun b hb ↦ ?_
  obtain ⟨houtputs, hgrouped⟩ := hscope b hb
  exact TestScope.compileFrom_mono houtputs hgrouped hsub hcatalog b.sources

/-! ### Plans -/

namespace Draft

variable {d : Draft}

/-- Without custom queries only the catalog is requested. -/
theorem requests_of_isCatalogOnly (h : d.config.IsCatalogOnly) :
    d.requests = mergeRequests d.measured := by
  rw [requests, customKeys, customs_eq_nil h, List.flatMap_nil, List.map_nil, List.append_nil]

theorem isCatalog_of_mem_requests (h : d.config.IsCatalogOnly) {key : MetricKey}
    (hkey : key ∈ d.requests.map MetricRequest.key) : key.IsCatalog := by
  rw [requests_of_isCatalogOnly h, mem_keys_mergeRequests] at hkey
  obtain ⟨r, hr, rfl⟩ := List.mem_map.mp hkey
  rcases request_cases hr with ⟨internal, rfl⟩ | ⟨column, m, internal, hm, rfl⟩
  · exact .inl rfl
  · exact .inr ⟨column, m, hm, rfl⟩

variable {c : ScanConfiguration} (h : d.config.AsksNoMore c)
include h

/-- More that is asked of the catalog comes to more requests. -/
theorem covers_measured : Covers (Draft.measured { d with config := c }) d.measured := by
  have hselection : d.selection.metrics ⊆ (Draft.selection { d with config := c }).metrics :=
    Selection.metrics_mono h.metrics h.groups
  refine Covers.append (.of_subset fun r hr ↦ ?_) ?_
  · rw [mem_requests_scanWideFindings] at hr ⊢
    exact ⟨hr.1, hselection hr.2⟩
  · simp only [planned, List.flatMap_map]
    exact .flatMap fun column _ ↦ covers_planColumn h d.warehouse d.source hselection column

/-- The same tests are declared. -/
theorem tests_of_asksNoMore (hcatalog : d.config.IsCatalogOnly) :
    Draft.tests { d with config := c } = d.tests := by
  have hcolumns : (Draft.planned { d with config := c }).flatMap PlannedColumn.tests =
      d.planned.flatMap PlannedColumn.tests := by
    simp only [planned, List.flatMap_map]
    refine List.flatMap_congr fun column _ ↦ ?_
    simp only [planColumn, ColumnProfile.ofColumn_congr (h.column? column.name), h.columnTests_eq]
  have hcustoms : Draft.customs { d with config := c } = [] :=
    customs_eq_nil (hcatalog.of_asksNoMore h)
  unfold tests
  rw [hcolumns, hcustoms, customs_eq_nil hcatalog, ← h.tableName_eq, ← h.tests_eq]

/-- No fewer tests compile. -/
theorem plan_tests_sublist (hcatalog : d.config.IsCatalogOnly) :
    d.plan.tests.Sublist (Draft.plan { d with config := c }).tests := by
  have hcatalog' := hcatalog.of_asksNoMore h
  have hkeys : d.requests.map MetricRequest.key ⊆
      (Draft.requests { d with config := c }).map MetricRequest.key := by
    rw [requests_of_isCatalogOnly hcatalog, requests_of_isCatalogOnly hcatalog']
    exact (covers_measured h).merge.keys
  have hscope : ∀ b ∈ d.tests, b.scope.outputs = [] ∧ b.scope.grouped = none := by
    intro b hb
    obtain ⟨houtputs, hgrouped⟩ := scope_of_mem_tests hb
    have hnone : d.customKeys = [] := by rw [customKeys, customs_eq_nil hcatalog, List.flatMap_nil]
    rw [hnone] at houtputs hgrouped
    refine ⟨List.eq_nil_iff_forall_not_mem.mpr fun key hkey ↦ ?_,
      Option.eq_none_iff_forall_ne_some.mpr fun key hkey ↦ ?_⟩
    · exact List.not_mem_nil (houtputs key hkey)
    · exact List.not_mem_nil (hgrouped key hkey)
  rw [plan_tests, plan_tests, compiled, compiled, tests_of_asksNoMore h hcatalog]
  exact DeclaredTests.compile_mono hkeys (fun key ↦ isCatalog_of_mem_requests hcatalog') hscope

end Draft

/-- Asking for more never takes anything away: without custom queries, if the lists of metrics and
groups of a configuration that can be planned get more entries, it can still be planned, what was
requested is requested, what was reported is reported, and the tests that compiled compile to the
same tests. -/
theorem ScanConfiguration.plan_larger {c c' : ScanConfiguration} (h : c.AsksNoMore c')
    (hcatalog : c.IsCatalogOnly) {w : Warehouse} {cap : Nat} {columns : List TableColumn} {p : Plan}
    (hplan : c.plan w cap columns = .ok p) :
    ∃ p', c'.plan w cap columns = .ok p' ∧ Covers p'.requests p.requests ∧
      p.tests.Sublist p'.tests := by
  obtain ⟨hunknown, source, hsource, rfl⟩ := plan_eq_ok_iff.mp hplan
  let d : Draft := ⟨w, cap, c, columns, source⟩
  have hd : d.config.AsksNoMore c' := h
  refine ⟨Draft.plan { d with config := c' }, plan_eq_ok_iff.mpr ⟨?_, source, ?_, rfl⟩, ?_,
    Draft.plan_tests_sublist hd hcatalog⟩
  · rw [← h.unknownColumn?_eq, hunknown]
  · rw [← h.source_eq, hsource]
  · have hrequests := Draft.requests_of_isCatalogOnly (d := d) hcatalog
    have hrequests' := Draft.requests_of_isCatalogOnly (d := { d with config := c' })
      (hcatalog.of_asksNoMore h)
    rw [Draft.plan_requests, Draft.plan_requests, hrequests, hrequests']
    exact (Draft.covers_measured hd).merge

/-- A table of orders with tests, one of which is about something that is not measured. -/
def testedOrders : ScanConfiguration :=
  { ScanConfiguration.ofTable "orders" with
    metrics := ["row_count"]
    tests := ["row_count > 0", "email.missing_count == 0"]
    columns := Dict.empty.insert "email"
      { ColumnSettings.empty with metrics := ["uniqueness"], tests := ["uniqueness > 0.9"] } }

/-- The table of orders where more is measured, of all columns and of one. -/
def largerOrders : ScanConfiguration :=
  { testedOrders with
    metrics := ["row_count", "distinct"]
    metricGroups := ["missing"]
    columns := Dict.empty.insert "email"
      { ColumnSettings.empty with
        metrics := ["min_length", "uniqueness"], tests := ["uniqueness > 0.9"] } }

/-- What is planned for the table of orders is planned where more is measured. -/
theorem largerOrders_plan :
    testedOrders.AsksNoMore largerOrders ∧ testedOrders.IsCatalogOnly ∧
      ∃ p, testedOrders.plan .postgreSQL 0 ordersColumns = .ok p ∧
        ∃ p', largerOrders.plan .postgreSQL 0 ordersColumns = .ok p' ∧
          Covers p'.requests p.requests ∧ p.tests.Sublist p'.tests := by
  have hcolumns : ∀ key, Option.Rel ColumnSettings.AsksNoMore (testedOrders.columns.get? key)
      (largerOrders.columns.get? key) := by
    intro key
    simp only [testedOrders, largerOrders, Dict.get?_insert, Dict.get?_empty]
    split
    · exact .some ⟨List.subset_cons_self _ _, List.nil_subset _, rfl⟩
    · exact .none
  have h : testedOrders.AsksNoMore largerOrders :=
    ⟨by decide, List.nil_subset _, hcolumns, rfl⟩
  have hcatalog : testedOrders.IsCatalogOnly := ⟨rfl, by decide⟩
  obtain ⟨p, hplan⟩ : ∃ p, testedOrders.plan .postgreSQL 0 ordersColumns = .ok p :=
    ScanConfiguration.exists_plan (by decide) rfl
  exact ⟨h, hcatalog, p, hplan, ScanConfiguration.plan_larger h hcatalog hplan⟩

end DataQuality
