import DataQuality.Proofs.Closures
import DataQuality.Proofs.TestDeclarations

/-!
# Requested metrics

Whatever is asked of a column is requested for it, or an issue says why it cannot be had; and
nothing else is requested for its own sake or complained about. A metric is asked of a column by the
column's own list of metrics, or by a group or by the whole scan if it applies to the column.
-/

namespace DataQuality

/-! ### Asking -/

/-- Whether a list of names names a metric. -/
def NamesMetric (names : List String) (m : Metric) : Prop :=
  ∃ name ∈ names, Metric.ofName? name = some m

/-- Whether a list of names names a group that a metric belongs to. -/
def NamesGroupOf (names : List String) (m : Metric) : Prop :=
  ∃ name ∈ names, ∃ g, MetricGroup.ofName? name = some g ∧ m ∈ g.members

namespace ScanConfiguration

/-- Whether a metric is asked of the whole scan. -/
def AsksScanWide (config : ScanConfiguration) (m : Metric) : Prop :=
  NamesMetric config.metrics m ∨ NamesGroupOf config.metricGroups m

/-- Whether the list of metrics in the settings of a column names a metric. -/
def AsksByName (config : ScanConfiguration) (c : TableColumn) (m : Metric) : Prop :=
  ∃ s, config.column? c.name = some s ∧ NamesMetric s.metrics m

/-- Whether a group in the settings of a column holds a metric. -/
def AsksByGroup (config : ScanConfiguration) (c : TableColumn) (m : Metric) : Prop :=
  ∃ s, config.column? c.name = some s ∧ NamesGroupOf s.metricGroups m

/-- Whether a metric is asked of a column: by name, or in another way and it applies to the
column. -/
def AsksOf (w : Warehouse) (config : ScanConfiguration) (c : TableColumn) (m : Metric) : Prop :=
  m ≠ .rowCount ∧ (config.AsksByName c m ∨
    (config.AsksScanWide m ∨ config.AsksByGroup c m) ∧
      (ColumnProfile.ofColumn w c (config.column? c.name)).accepts m = true)

/-- Whether the number of rows is asked for, by the whole scan or with any column. -/
def AsksForRows (config : ScanConfiguration) (columns : List TableColumn) : Prop :=
  config.AsksScanWide .rowCount ∨
    ∃ c ∈ columns, config.AsksByName c .rowCount ∨ config.AsksByGroup c .rowCount

end ScanConfiguration

/-- The kinds of issues that say why a metric cannot be had. -/
def IssueKind.refusals : List IssueKind :=
  [.unsupportedByDialect, .dependencyUnavailable, .incompatibleColumnType]

/-- Whether an issue says why a metric of a column cannot be had. -/
def Issue.Explains (i : Issue) (column : String) (m : Metric) : Prop :=
  i.subject = column ++ "." ++ m.name ∧ i.kind ∈ IssueKind.refusals

/-- The request for a metric of a column that was asked for. -/
def metricRequest (column : String) (m : Metric) : MetricRequest :=
  ⟨.ofColumn column m.name, some m, false⟩

/-- Findings answer what is asked of a column: a metric that is asked for is requested or an issue
explains why not, and only such metrics are. The number of rows is no metric of a column. -/
structure Findings.Answer (f : Findings) (column : String) (asked : Metric → Prop) : Prop where
  answered : ∀ m, asked m →
    metricRequest column m ∈ f.requests ∨ ∃ i ∈ f.issues, i.Explains column m
  requests : ∀ r ∈ f.requests, r.internal = false →
    r = rowCountRequest false ∨ ∃ m, asked m ∧ r = metricRequest column m
  issues : ∀ i ∈ f.issues, i.kind ∈ IssueKind.refusals → ∃ m, asked m ∧ i.Explains column m

namespace Findings.Answer

variable {requests : List MetricRequest} {issues : List Issue} {column : String}
  {asked : Metric → Prop}

/-- Nothing answers nothing. -/
theorem nil (h : ∀ m, ¬ asked m) : Answer ⟨[], []⟩ column asked :=
  ⟨fun m hm ↦ absurd hm (h m), fun _ hr ↦ (by cases hr), fun _ hi ↦ (by cases hi)⟩

/-- It is what is asked that counts, however it is said. -/
theorem of_iff {other : Metric → Prop} (h : Answer ⟨requests, issues⟩ column other)
    (hiff : ∀ m, asked m ↔ other m) : Answer ⟨requests, issues⟩ column asked := by
  rwa [show asked = other from funext fun m ↦ propext (hiff m)]

/-- An internal request answers nothing. -/
theorem internal (h : Answer ⟨requests, issues⟩ column asked) {r : MetricRequest}
    (hr : r.internal = true) : Answer ⟨r :: requests, issues⟩ column asked where
  answered := by
    intro m hm
    rcases h.answered m hm with hmem | hissue
    · exact .inl (List.mem_cons_of_mem _ hmem)
    · exact .inr hissue
  requests := by
    intro q hq hflag
    rcases List.mem_cons.mp hq with rfl | hq
    · rw [hr] at hflag
      cases hflag
    · exact h.requests q hq hflag
  issues := h.issues

/-- One more request answers one more metric. -/
theorem request {m : Metric} {others : Metric → Prop}
    (h : Answer ⟨requests, issues⟩ column others) (hasked : ∀ n, asked n ↔ n = m ∨ others n) :
    Answer ⟨metricRequest column m :: requests, issues⟩ column asked where
  answered := by
    intro n hn
    rcases (hasked n).mp hn with rfl | hn
    · exact .inl List.mem_cons_self
    · rcases h.answered n hn with hmem | hissue
      · exact .inl (List.mem_cons_of_mem _ hmem)
      · exact .inr hissue
  requests := by
    intro q hq hflag
    rcases List.mem_cons.mp hq with rfl | hq
    · exact .inr ⟨m, (hasked m).mpr (.inl rfl), rfl⟩
    · rcases h.requests q hq hflag with hrow | ⟨n, hn, hqn⟩
      · exact .inl hrow
      · exact .inr ⟨n, (hasked n).mpr (.inr hn), hqn⟩
  issues := by
    intro i hi hkind
    obtain ⟨n, hn, hexplains⟩ := h.issues i hi hkind
    exact ⟨n, (hasked n).mpr (.inr hn), hexplains⟩

/-- One more issue answers one more metric. -/
theorem issue {m : Metric} {i : Issue} {others : Metric → Prop}
    (h : Answer ⟨requests, issues⟩ column others) (hi : i.Explains column m)
    (hasked : ∀ n, asked n ↔ n = m ∨ others n) :
    Answer ⟨requests, i :: issues⟩ column asked where
  answered := by
    intro n hn
    rcases (hasked n).mp hn with rfl | hn
    · exact .inr ⟨i, List.mem_cons_self, hi⟩
    · rcases h.answered n hn with hmem | ⟨j, hj, hexplains⟩
      · exact .inl hmem
      · exact .inr ⟨j, List.mem_cons_of_mem _ hj, hexplains⟩
  requests := by
    intro q hq hflag
    rcases h.requests q hq hflag with hrow | ⟨n, hn, hqn⟩
    · exact .inl hrow
    · exact .inr ⟨n, (hasked n).mpr (.inr hn), hqn⟩
  issues := by
    intro j hj hkind
    rcases List.mem_cons.mp hj with rfl | hj
    · exact ⟨m, (hasked m).mpr (.inl rfl), hi⟩
    · obtain ⟨n, hn, hexplains⟩ := h.issues j hj hkind
      exact ⟨n, (hasked n).mpr (.inr hn), hexplains⟩

end Findings.Answer

/-! ### Names -/

/-- The metrics that names and group names stand for are those that they name. -/
theorem Selection.mem_ofNames {names groups : List String} {m : Metric} :
    m ∈ (Selection.ofNames names groups).metrics ↔
      NamesMetric names m ∨ NamesGroupOf groups m := by
  unfold Selection.ofNames NamesMetric NamesGroupOf
  simp only [Metric.mem_ordered, List.mem_append, List.mem_filterMap, List.mem_flatMap]
  constructor
  · rintro (h | ⟨g, ⟨name, hname, hg⟩, hm⟩)
    · exact .inl h
    · exact .inr ⟨name, hname, g, hg, hm⟩
  · rintro (h | ⟨name, hname, g, hg, hm⟩)
    · exact .inl h
    · exact .inr ⟨g, ⟨name, hname, hg⟩, hm⟩

/-- A name that stands for nothing is no refusal. -/
theorem Selection.kind_of_mem_unknown {names groups : List String} {e : CatalogError}
    (h : e ∈ (Selection.ofNames names groups).unknown) (subject : String) :
    (e.issue subject).kind ∉ IssueKind.refusals := by
  rcases List.mem_append.mp h with h | h
  · obtain ⟨name, _, rfl⟩ := List.mem_map.mp h
    change IssueKind.unknownMetric ∉ IssueKind.refusals
    decide
  · obtain ⟨name, _, rfl⟩ := List.mem_map.mp h
    change IssueKind.unknownMetricGroup ∉ IssueKind.refusals
    decide

/-! ### The metrics of a column -/

namespace ColumnPlan

variable {w : Warehouse} {p : ColumnProfile} {conditions : Except DialectError ColumnConditions}

/-- An obstacle explains why a metric cannot be had. -/
theorem explains_obstacle (o : Obstacle) (column : String) (m : Metric) :
    (o.issue (column ++ "." ++ m.name)).Explains column m := by
  cases o with
  | missingDependency dependency =>
    exact ⟨rfl, List.mem_cons_of_mem _ List.mem_cons_self⟩
  | unsupported e => exact ⟨rfl, List.mem_cons_self⟩

/-- The metrics of a list that were asked for; the number of rows is none of a column. -/
def Asked (resolved : List ResolvedMetric) (m : Metric) : Prop :=
  m ≠ .rowCount ∧ ⟨m, false⟩ ∈ resolved

/-- The number of rows and what is internal was not asked for. -/
theorem asked_cons_of_internal {r : ResolvedMetric} {rest : List ResolvedMetric}
    (h : r.metric = .rowCount ∨ r.internal = true) (m : Metric) :
    Asked (r :: rest) m ↔ Asked rest m := by
  obtain ⟨metric, internal⟩ := r
  unfold Asked
  constructor
  · rintro ⟨hrow, hmem⟩
    rcases List.mem_cons.mp hmem with heq | hmem
    · cases heq
      rcases h with h | h
      · exact absurd h hrow
      · cases h
    · exact ⟨hrow, hmem⟩
  · rintro ⟨hrow, hmem⟩
    exact ⟨hrow, List.mem_cons_of_mem _ hmem⟩

/-- Any other metric was asked for. -/
theorem asked_cons {r : ResolvedMetric} {rest : List ResolvedMetric} (hrow : r.metric ≠ .rowCount)
    (hflag : r.internal = false) (m : Metric) :
    Asked (r :: rest) m ↔ m = r.metric ∨ Asked rest m := by
  obtain ⟨metric, internal⟩ := r
  obtain rfl : internal = false := hflag
  unfold Asked
  constructor
  · rintro ⟨hm, hmem⟩
    rcases List.mem_cons.mp hmem with heq | hmem
    · cases heq
      exact .inl rfl
    · exact .inr ⟨hm, hmem⟩
  · rintro (rfl | ⟨hm, hmem⟩)
    · exact ⟨hrow, List.mem_cons_self⟩
    · exact ⟨hm, List.mem_cons_of_mem _ hmem⟩

/-- Planning metrics requests or explains those that were asked for. -/
theorem answer_ofMetrics (available : List Metric) (resolved : List ResolvedMetric) :
    (ofMetrics w p conditions available resolved).findings.Answer p.key (Asked resolved) := by
  induction resolved generalizing available with
  | nil => exact .nil (by simp [Asked])
  | cons r rest ih =>
    unfold ofMetrics
    split
    · next hrow => exact ((ih _).of_iff (asked_cons_of_internal (.inl hrow))).internal rfl
    · next hrow =>
      split
      · next how _ =>
        rw [findings_produce]
        cases hflag : r.internal with
        | true => exact ((ih _).of_iff (asked_cons_of_internal (.inr hflag))).internal rfl
        | false => exact (ih _).request (asked_cons hrow hflag)
      · next o _ =>
        unfold ColumnPlan.drop
        cases hflag : r.internal with
        | true => exact (ih _).of_iff (asked_cons_of_internal (.inr hflag))
        | false =>
          exact (ih _).issue (explains_obstacle o p.key r.metric) (asked_cons hrow hflag)

/-- What is wanted of a column is requested or explained. -/
theorem answer_ofWanted (metrics : List Metric) :
    (ofWanted w p conditions metrics).findings.Answer p.key
      fun m ↦ m ≠ .rowCount ∧ m ∈ metrics := by
  obtain ⟨resolved, hresolved, hasked, hflag⟩ := exists_resolve metrics
  have hiff : ∀ m, m ≠ .rowCount ∧ m ∈ metrics ↔ Asked resolved m :=
    fun m ↦ and_congr_right fun _ ↦ ⟨hasked m, fun h ↦ hflag _ h rfl⟩
  unfold ofWanted
  rw [hresolved]
  exact (answer_ofMetrics [] resolved).of_iff hiff

/-- The number of rows is requested with the metrics of a column for their sake only. -/
theorem rowCountRequest_not_mem (metrics : List Metric) :
    rowCountRequest false ∉ (ofWanted w p conditions metrics).findings.requests := by
  intro h
  rcases (coherent_ofWanted metrics).requests _ h with heq | ⟨m, internal, _, heq⟩
  · cases heq
  · cases heq

end ColumnPlan

namespace Wanted

variable {p : ColumnProfile} {scanWide : List Metric} {settings : Option ColumnSettings}

/-- What is wanted of a column are the metrics asked for that apply to it. -/
theorem mem_metrics {m : Metric} :
    m ∈ (ofColumn p scanWide settings).metrics ↔
      m ≠ .rowCount ∧ p.accepts m = true ∧
        (m ∈ scanWide ∨ ∃ s, settings = some s ∧
          (NamesMetric s.metrics m ∨ NamesGroupOf s.metricGroups m)) := by
  cases settings with
  | none =>
    simp only [ofColumn, List.mem_filter, Bool.and_eq_true, decide_eq_true_eq, reduceCtorEq,
      false_and, exists_false, or_false]
    tauto
  | some s =>
    simp only [ofColumn, Metric.mem_ordered, List.mem_append, List.mem_filter,
      Selection.mem_ofNames, Bool.and_eq_true, decide_eq_true_eq, Option.some.injEq,
      exists_eq_left']
    tauto

/-- The number of rows is requested with a column whose settings name it. -/
theorem rowCountRequest_mem :
    rowCountRequest false ∈ (ofColumn p scanWide settings).findings.requests ↔
      ∃ s, settings = some s ∧
        (NamesMetric s.metrics .rowCount ∨ NamesGroupOf s.metricGroups .rowCount) := by
  cases settings with
  | none => simp [ofColumn]
  | some s =>
    simp only [ofColumn, Option.some.injEq, exists_eq_left', ← Selection.mem_ofNames,
      ← List.contains_iff_mem]
    split
    · next h => exact iff_of_true (by simp) h
    · next h => exact iff_of_false (by simp) h

/-- A refusal among what is found with the settings of a column is about a metric that they name
and that does not apply. -/
theorem mem_refusals {i : Issue} (h : i ∈ (ofColumn p scanWide settings).findings.issues)
    (hkind : i.kind ∈ IssueKind.refusals) :
    ∃ s m, settings = some s ∧ m ≠ .rowCount ∧ NamesMetric s.metrics m ∧
      i.Explains p.key m := by
  cases settings with
  | none => cases h
  | some s =>
    rcases List.mem_append.mp h with h | h
    · obtain ⟨e, he, rfl⟩ := List.mem_map.mp h
      exact absurd hkind (Selection.kind_of_mem_unknown he p.key)
    · obtain ⟨m, hm, rfl⟩ := List.mem_map.mp h
      have hrefused := (List.mem_filter.mp hm).2
      simp only [Bool.and_eq_true, decide_eq_true_eq, List.contains_iff_mem,
        List.mem_filterMap] at hrefused
      exact ⟨s, m, rfl, hrefused.1.1, hrefused.2, rfl, hkind⟩

/-- A metric that the settings name but that does not apply is explained. -/
theorem exists_refusal {s : ColumnSettings} {m : Metric} (hsettings : settings = some s)
    (hrow : m ≠ .rowCount) (hname : NamesMetric s.metrics m) (hrefused : ¬ p.accepts m = true) :
    ∃ i ∈ (ofColumn p scanWide settings).findings.issues, i.Explains p.key m := by
  cases hsettings
  refine ⟨incompatible p m, List.mem_append_right _ (List.mem_map_of_mem ?_), rfl, ?_⟩
  · simp only [List.mem_filter, Selection.mem_ofNames, Bool.and_eq_true, decide_eq_true_eq,
      List.contains_iff_mem, List.mem_filterMap, Bool.not_eq_true']
    exact ⟨.inl hname, ⟨hrow, by simpa using hrefused⟩, hname⟩
  · change IssueKind.incompatibleColumnType ∈ IssueKind.refusals
    decide

end Wanted

section

variable {w : Warehouse} {config : ScanConfiguration} {source : QuerySource} {c : TableColumn}

/-- What is wanted of a column is what is asked of it and applies. -/
theorem mem_metrics_ofColumn {m : Metric} :
    m ∈ (Wanted.ofColumn (.ofColumn w c (config.column? c.name))
        (Selection.ofNames config.metrics config.metricGroups).metrics
        (config.column? c.name)).metrics ↔
      config.AsksOf w c m ∧
        (ColumnProfile.ofColumn w c (config.column? c.name)).accepts m = true := by
  rw [Wanted.mem_metrics, Selection.mem_ofNames]
  unfold ScanConfiguration.AsksOf ScanConfiguration.AsksScanWide ScanConfiguration.AsksByName
    ScanConfiguration.AsksByGroup
  constructor
  · rintro ⟨hrow, haccepts, hwide | ⟨s, hs, hname | hgroup⟩⟩
    · exact ⟨⟨hrow, .inr ⟨.inl hwide, haccepts⟩⟩, haccepts⟩
    · exact ⟨⟨hrow, .inl ⟨s, hs, hname⟩⟩, haccepts⟩
    · exact ⟨⟨hrow, .inr ⟨.inr ⟨s, hs, hgroup⟩, haccepts⟩⟩, haccepts⟩
  · rintro ⟨⟨hrow, ⟨s, hs, hname⟩ | ⟨hwide | ⟨s, hs, hgroup⟩, _⟩⟩, haccepts⟩
    · exact ⟨hrow, haccepts, .inr ⟨s, hs, .inl hname⟩⟩
    · exact ⟨hrow, haccepts, .inl hwide⟩
    · exact ⟨hrow, haccepts, .inr ⟨s, hs, .inr hgroup⟩⟩

/-- What is asked of a column is requested or explained where the column is planned. -/
theorem answer_planColumn :
    (planColumn w config source (Selection.ofNames config.metrics config.metricGroups).metrics
      c).findings.Answer (Text.lower c.name) (config.AsksOf w c) := by
  have hplan := @ColumnPlan.answer_ofWanted w (.ofColumn w c (config.column? c.name))
    (ColumnConditions.build w (.ofColumn w c (config.column? c.name)) (config.column? c.name))
    (Wanted.ofColumn (.ofColumn w c (config.column? c.name))
      (Selection.ofNames config.metrics config.metricGroups).metrics
      (config.column? c.name)).metrics
  refine ⟨?_, ?_, ?_⟩
  · intro m hm
    by_cases haccepts : (ColumnProfile.ofColumn w c (config.column? c.name)).accepts m = true
    · rcases hplan.answered m ⟨hm.1, mem_metrics_ofColumn.mpr ⟨hm, haccepts⟩⟩ with
        hrequest | ⟨i, hi, hexplains⟩
      · exact .inl (List.mem_append_right _ hrequest)
      · exact .inr ⟨i, List.mem_append_right _ hi, hexplains⟩
    · -- Only what the settings name is asked of a column to which it does not apply.
      rcases hm.2 with ⟨s, hs, hname⟩ | ⟨_, haccepted⟩
      · obtain ⟨i, hi, hexplains⟩ := Wanted.exists_refusal hs hm.1 hname haccepts
        exact .inr ⟨i, List.mem_append_left _ hi, hexplains⟩
      · exact absurd haccepted haccepts
  · intro r hr hflag
    rcases List.mem_append.mp hr with hr | hr
    · exact .inl (Wanted.eq_rowCountRequest hr)
    · rcases hplan.requests r hr hflag with hrow | ⟨m, ⟨_, hm⟩, heq⟩
      · exact .inl hrow
      · exact .inr ⟨m, (mem_metrics_ofColumn.mp hm).1, heq⟩
  · intro i hi hkind
    rcases List.mem_append.mp hi with hi | hi
    · obtain ⟨s, m, hs, hrow, hname, hexplains⟩ := Wanted.mem_refusals hi hkind
      exact ⟨m, ⟨hrow, .inl ⟨s, hs, hname⟩⟩, hexplains⟩
    · obtain ⟨m, ⟨_, hm⟩, hexplains⟩ := hplan.issues i hi hkind
      exact ⟨m, (mem_metrics_ofColumn.mp hm).1, hexplains⟩

/-- The number of rows is requested with a column exactly if the settings of the column name it. -/
theorem rowCountRequest_mem_planColumn {scanWide : List Metric} :
    rowCountRequest false ∈ (planColumn w config source scanWide c).findings.requests ↔
      config.AsksByName c .rowCount ∨ config.AsksByGroup c .rowCount := by
  have hsettings : rowCountRequest false ∈
      (planColumn w config source scanWide c).findings.requests ↔
      rowCountRequest false ∈ (Wanted.ofColumn (.ofColumn w c (config.column? c.name)) scanWide
        (config.column? c.name)).findings.requests := by
    refine List.mem_append.trans (or_iff_left ?_)
    exact ColumnPlan.rowCountRequest_not_mem _
  rw [hsettings, Wanted.rowCountRequest_mem]
  unfold ScanConfiguration.AsksByName ScanConfiguration.AsksByGroup
  constructor
  · rintro ⟨s, hs, hname | hgroup⟩
    · exact .inl ⟨s, hs, hname⟩
    · exact .inr ⟨s, hs, hgroup⟩
  · rintro (⟨s, hs, hname⟩ | ⟨s, hs, hgroup⟩)
    · exact ⟨s, hs, .inl hname⟩
    · exact ⟨s, hs, .inr hgroup⟩

end

/-! ### The plan -/

attribute [ext] MetricRequest

/-- A custom query that cannot be planned is no refusal of a metric. -/
theorem DeclaredMetric.kind_of_mem_issues {q : DeclaredMetric} {table : String}
    {known : List MetricKey} {i : Issue} (h : i ∈ (q.plan table known).issues) :
    i.kind = .invalidSqlMetric := by
  have hone : ∀ {message}, i ∈ [q.issue message] → i.kind = .invalidSqlMetric := by
    intro message hi
    rw [List.mem_singleton.mp hi]
    rfl
  have hclash : ∀ {bindings : List Binding}, i ∈ (bindings.map fun b ↦
      q.issue ("metric '" ++ b.key.text ++ "' is already defined")) →
      i.kind = .invalidSqlMetric := by
    intro bindings hi
    obtain ⟨b, _, rfl⟩ := List.mem_map.mp hi
    rfl
  unfold plan at h
  split at h
  · exact hone h
  · split at h
    · unfold planForm at h
      dsimp only at h
      split at h
      · rcases List.mem_append.mp h with h | h
        · exact hclash h
        · exact hone h
      · exact hclash h
    · exact hone h

/-- A test that cannot be compiled is no refusal of a metric. -/
theorem DeclaredTests.kind_of_mem_failures {t : DeclaredTests} {available : List MetricKey}
    {i : Issue} (h : .error i ∈ t.compile available) : i.kind ∉ IssueKind.refusals := by
  obtain ⟨index, source, -, hone⟩ := TestScope.exists_of_mem_compileFrom h
  rcases (TestScope.of_compileOne_eq_error hone).1 with hkind | hkind <;>
    · rw [hkind]
      decide

namespace Draft

variable {d : Draft}

/-- A request of the catalog is one of the whole scan or of a column. -/
theorem mem_measured_iff {r : MetricRequest} :
    r ∈ d.measured ↔ r ∈ (scanWideFindings d.selection).requests ∨
      ∃ c ∈ d.columns, r ∈
        (planColumn d.warehouse d.config d.source d.selection.metrics c).findings.requests := by
  unfold measured planned
  rw [List.mem_append, List.flatMap_map, List.mem_flatMap]

/-- Requests of the catalog with the same key are for the same metric. -/
theorem metric_eq_of_key_eq {q r : MetricRequest} (hq : q ∈ d.measured) (hr : r ∈ d.measured)
    (hkey : q.key = r.key) : q.metric = r.metric := by
  rcases request_cases hq with ⟨_, rfl⟩ | ⟨column, m, _, _, rfl⟩
  · rcases request_cases hr with ⟨_, rfl⟩ | ⟨column', m', _, _, rfl⟩
    · rfl
    · cases hkey
  · rcases request_cases hr with ⟨_, rfl⟩ | ⟨column', m', _, _, rfl⟩
    · cases hkey
    · have hname : m.name = m'.name := congrArg MetricKey.name hkey
      rw [Metric.name_inj.mp hname]

/-- What is requested under a key of the catalog is a request of the catalog. -/
theorem mem_measured_of_key {q r : MetricRequest} (hr : r ∈ d.measured)
    (hq : q ∈ d.measured ++ d.customKeys.map fun key ↦ ⟨key, none, false⟩)
    (hkey : q.key = r.key) : q ∈ d.measured := by
  rcases List.mem_append.mp hq with hq | hq
  · exact hq
  · obtain ⟨key, hmem, rfl⟩ := List.mem_map.mp hq
    obtain rfl : key = r.key := hkey
    exact absurd (List.mem_map_of_mem hr) (not_measured_of_mem_customKeys hmem)

/-- Merging keeps the metrics of requests. -/
theorem metric_of_mem_requests {q r : MetricRequest} (hr : r ∈ d.requests) (hq : q ∈ d.measured)
    (hkey : q.key = r.key) : r.metric = q.metric := by
  obtain ⟨first, hfirst, hfirstkey, hmetric⟩ := exists_of_mem_mergeRequests hr
  have hsame : first.key = q.key := hfirstkey.trans hkey.symm
  rw [← hmetric]
  exact metric_eq_of_key_eq (mem_measured_of_key hq hfirst hsame) hq hsame

/-- A metric of the catalog that was asked for somewhere is requested in the plan, and one that is
requested there was asked for somewhere. -/
theorem mem_requests_iff {r : MetricRequest} (hmetric : r.metric.isSome = true)
    (hasked : r.internal = false) : r ∈ d.requests ↔ r ∈ d.measured := by
  constructor
  · intro hr
    obtain ⟨q, hq, hqkey⟩ := List.mem_map.mp ((metric_isSome_iff hr).mp hmetric)
    have hinternal := mt (internal_iff_of_mem_mergeRequests hr).mpr (by simp [hasked])
    push Not at hinternal
    obtain ⟨other, hother, hkey, hflag⟩ := hinternal
    have hmeasured := mem_measured_of_key hq hother (hkey.trans hqkey.symm)
    rwa [MetricRequest.ext hkey.symm (metric_of_mem_requests hr hmeasured hkey)
      (hasked.trans (Bool.eq_false_iff.mpr hflag).symm)]
  · intro hr
    obtain ⟨merged, hmerged, hkey⟩ :=
      List.mem_map.mp (mem_keys_requests.mpr (.inl (List.mem_map_of_mem hr)))
    have hflag : merged.internal = false := by
      refine Bool.eq_false_iff.mpr fun hinternal ↦ ?_
      have hall := (internal_iff_of_mem_mergeRequests hmerged).mp hinternal r
        (List.mem_append_left _ hr) hkey.symm
      rw [hasked] at hall
      cases hall
    rwa [← MetricRequest.ext hkey (metric_of_mem_requests hmerged hr hkey.symm)
      (hflag.trans hasked.symm)]

/-- Only the columns refuse metrics. -/
theorem mem_issues_iff {i : Issue} (hkind : i.kind ∈ IssueKind.refusals) :
    i ∈ d.plan.issues ↔ ∃ c ∈ d.planned, i ∈ c.findings.issues := by
  rw [plan_issues, List.mem_append, mem_mergeIssues, List.mem_append, List.mem_append,
    List.mem_flatMap, List.mem_flatMap]
  constructor
  · rintro (((hscan | hcolumn) | ⟨plan, hplan, hcustom⟩) | htest)
    · obtain ⟨e, he, rfl⟩ := List.mem_map.mp hscan
      exact absurd hkind (Selection.kind_of_mem_unknown he "metrics")
    · exact hcolumn
    · obtain ⟨q, _, others, rfl⟩ := exists_of_mem_planCustom hplan
      rw [DeclaredMetric.kind_of_mem_issues hcustom] at hkind
      exact absurd hkind (by decide)
    · obtain ⟨t, _, ht⟩ := List.mem_flatMap.mp (mem_failures_iff.mp htest)
      exact absurd hkind (DeclaredTests.kind_of_mem_failures ht)
  · exact fun h ↦ .inl (.inl (.inr h))

/-- The number of rows is requested exactly if it is asked for. -/
theorem rowCountRequest_mem_iff :
    rowCountRequest false ∈ d.requests ↔ d.config.AsksForRows d.columns := by
  have hscan : rowCountRequest false ∈ (scanWideFindings d.selection).requests ↔
      d.config.AsksScanWide .rowCount := by
    rw [mem_requests_scanWideFindings, and_iff_right rfl]
    exact Selection.mem_ofNames
  rw [mem_requests_iff rfl rfl, mem_measured_iff, hscan]
  simp only [rowCountRequest_mem_planColumn, ScanConfiguration.AsksForRows]

/-- Requests are found under their keys. -/
theorem request?_eq_some_iff {r : MetricRequest} :
    d.plan.request? r.key = some r ↔ r ∈ d.requests :=
  ⟨fun h ↦ List.mem_of_find?_eq_some h,
    fun h ↦ find?_key_of_mem (nodup_keys_mergeRequests _) h⟩

/-- What is requested beside the catalog are results of custom queries. -/
theorem exists_custom_group_of_metric {r : MetricRequest} (hr : r ∈ d.requests)
    (hmetric : r.metric = none) : ∃ g ∈ d.plan.groups, g.phase = .custom ∧ r.key ∈ g.keys := by
  rw [exists_custom_group_iff]
  rcases mem_keys_requests.mp (List.mem_map_of_mem hr) with hmeasured | hcustom
  · have hsome := (metric_isSome_iff hr).mpr hmeasured
    rw [hmetric] at hsome
    cases hsome
  · exact hcustom

end Draft

/-- If planning succeeds, what is asked of a column is requested, or an issue says why it cannot be
had; settings under a lowercase name are those of a column of the table; the number of rows is
requested exactly if it is asked for. Every other request of the catalog that is not internal is for
what was asked, and so is every such issue. What is requested beside the catalog are results of
custom queries, which may take the name of the number of rows. -/
theorem Plan.requests_or_explains {w : Warehouse} {cap : Nat} {config : ScanConfiguration}
    {columns : List TableColumn} {p : Plan} (hplan : config.plan w cap columns = .ok p) :
    (∀ c ∈ columns, ∀ m, config.AsksOf w c m →
      p.request? (.ofColumn (Text.lower c.name) m.name) =
          some (metricRequest (Text.lower c.name) m) ∨
        ∃ i ∈ p.issues, i.Explains (Text.lower c.name) m) ∧
    (∀ entry ∈ config.columns.entries, Text.lower entry.1 = entry.1 →
      ∃ c ∈ columns, Text.lower c.name = entry.1 ∧ config.column? c.name = some entry.2) ∧
    (p.request? (.ofTable Metric.rowCount.name) = some (rowCountRequest false) ↔
      config.AsksForRows columns) ∧
    (∀ r ∈ p.requests, r.metric.isSome = true → r.internal = false →
      r = rowCountRequest false ∧ config.AsksForRows columns ∨
        ∃ c ∈ columns, ∃ m, config.AsksOf w c m ∧ r = metricRequest (Text.lower c.name) m) ∧
    (∀ r ∈ p.requests, r.metric = none → ∃ g ∈ p.groups, g.phase = .custom ∧ r.key ∈ g.keys) ∧
    ∀ i ∈ p.issues, i.kind ∈ IssueKind.refusals →
      ∃ c ∈ columns, ∃ m, config.AsksOf w c m ∧ i.Explains (Text.lower c.name) m := by
  obtain ⟨hfound, source, _, rfl⟩ := ScanConfiguration.plan_eq_ok_iff.mp hplan
  let d : Draft := ⟨w, cap, config, columns, source⟩
  have hrows : rowCountRequest false ∈ d.requests ↔ config.AsksForRows columns :=
    Draft.rowCountRequest_mem_iff
  have hanswer : ∀ c, (planColumn w config source d.selection.metrics c).findings.Answer
      (Text.lower c.name) (config.AsksOf w c) := fun _ ↦ answer_planColumn
  refine ⟨?_, ?_, ?_, ?_, ?_, ?_⟩
  · intro c hc m hm
    rcases (hanswer c).answered m hm with hrequest | ⟨i, hi, hexplains⟩
    · have hmeasured : metricRequest (Text.lower c.name) m ∈ d.measured :=
        Draft.mem_measured_iff.mpr (.inr ⟨c, hc, hrequest⟩)
      have hmem := (Draft.mem_requests_iff rfl rfl).mpr hmeasured
      exact .inl (Draft.request?_eq_some_iff.mpr hmem)
    · exact .inr ⟨i, (Draft.mem_issues_iff hexplains.2).mpr ⟨_, List.mem_map_of_mem hc, hi⟩,
        hexplains⟩
  · rintro ⟨key, settings⟩ hentry hkey
    exact @Draft.exists_column d hfound key settings hentry hkey
  · exact (@Draft.request?_eq_some_iff d (rowCountRequest false)).trans hrows
  · intro r hr hmetric hflag
    have hmeasured := (@Draft.mem_requests_iff d r hmetric hflag).mp hr
    rcases Draft.mem_measured_iff.mp hmeasured with hscan | ⟨c, hc, hcolumn⟩
    · obtain ⟨heq, _⟩ := mem_requests_scanWideFindings.mp hscan
      exact .inl ⟨heq, hrows.mp (heq ▸ hr)⟩
    · rcases (hanswer c).requests r hcolumn hflag with heq | ⟨m, hm, heq⟩
      · exact .inl ⟨heq, hrows.mp (heq ▸ hr)⟩
      · exact .inr ⟨c, hc, m, hm, heq⟩
  · exact fun r hr hmetric ↦ Draft.exists_custom_group_of_metric hr hmetric
  · intro i hi hkind
    obtain ⟨plan, hplanned, hissue⟩ := (@Draft.mem_issues_iff d i hkind).mp hi
    obtain ⟨c, hc, rfl⟩ := List.mem_map.mp hplanned
    obtain ⟨m, hm, hexplains⟩ := (hanswer c).issues i hissue hkind
    exact ⟨c, hc, m, hm, hexplains⟩

/-- In the table of orders the number of rows is requested, and the uniqueness of the emails and the
missing ids are requested or explained. -/
theorem ordersConfiguration_requests_or_explains :
    ∃ p, ordersConfiguration.plan .postgreSQL 2 ordersColumns = .ok p ∧
      p.request? (.ofTable "row_count") = some (rowCountRequest false) ∧
      (p.request? (.ofColumn "email" "uniqueness") = some (metricRequest "email" .uniqueness) ∨
        ∃ i ∈ p.issues, i.Explains "email" .uniqueness) ∧
      (p.request? (.ofColumn "id" "missing_percentage") =
          some (metricRequest "id" .missingPercentage) ∨
        ∃ i ∈ p.issues, i.Explains "id" .missingPercentage) ∧
      ∀ i ∈ p.issues, i.kind ∈ IssueKind.refusals → ∃ c ∈ ordersColumns, ∃ m,
        ordersConfiguration.AsksOf .postgreSQL c m ∧ i.Explains (Text.lower c.name) m := by
  obtain ⟨p, hplan⟩ : ∃ p, ordersConfiguration.plan .postgreSQL 2 ordersColumns = .ok p :=
    ScanConfiguration.exists_plan (by decide) rfl
  obtain ⟨hasked, _, hrows, _, _, hissues⟩ := Plan.requests_or_explains hplan
  have hwide : ∀ m, (∃ name ∈ ["row_count", "missing_percentage", "histogram"],
      Metric.ofName? name = some m) → ordersConfiguration.AsksScanWide m := fun _ h ↦ .inl h
  have hemails := hasked ⟨"Email", "varchar", true⟩ (by decide) .uniqueness
    ⟨by decide, .inl ⟨_, rfl, "uniqueness", List.mem_singleton_self _, by decide +kernel⟩⟩
  have hids := hasked ⟨"id", "integer", false⟩ (by decide) .missingPercentage
    ⟨by decide, .inr ⟨.inl (hwide _ (by decide +kernel)), by decide +kernel⟩⟩
  rw [show Text.lower "Email" = "email" by decide +kernel] at hemails
  rw [show Text.lower "id" = "id" by decide +kernel] at hids
  exact ⟨p, hplan, hrows.mpr (.inl (hwide _ (by decide +kernel))), hemails, hids, hissues⟩

end DataQuality
