import DataQuality.Proofs.NameLists
import DataQuality.Proofs.RequestedMetrics

/-!
# Respelled requests

What is asked of the catalog may be written in many ways: the names of a list in any order,
repeated, in any letter case and between any blanks. None of this shows in a plan, down to the text
of its queries; only the order of its issues follows the order of the names.
-/

namespace DataQuality

variable {α : Type}

/-! ### Names -/

/-- A name is another one in any letter case and between any blanks, if it stands for something;
names that stand for nothing have to be the same. -/
def Respells (look : String → Option α) (n n' : String) : Prop :=
  n = n' ∨ (look n).isSome = true ∧ Text.lower (Text.trim n) = Text.lower (Text.trim n')

instance (look : String → Option α) (n n' : String) : Decidable (Respells look n n') :=
  inferInstanceAs (Decidable (n = n' ∨ (look n).isSome = true ∧
    Text.lower (Text.trim n) = Text.lower (Text.trim n')))

/-- Two lists contain the same names, in any order, with any repetitions and in any spelling. -/
def SameNames (look : String → Option α) (l l' : List String) : Prop :=
  (∀ n ∈ l, ∃ n' ∈ l', Respells look n n') ∧ ∀ n' ∈ l', ∃ n ∈ l, Respells look n n'

instance (look : String → Option α) (l l' : List String) : Decidable (SameNames look l l') :=
  inferInstanceAs (Decidable ((∀ n ∈ l, ∃ n' ∈ l', Respells look n n') ∧
    ∀ n' ∈ l', ∃ n ∈ l, Respells look n n'))

/-- What a name stands for does not depend on how it is spelled. -/
def IgnoresSpelling (look : String → Option α) : Prop :=
  ∀ n n', Text.lower (Text.trim n) = Text.lower (Text.trim n') → look n = look n'

theorem Metric.ignoresSpelling_ofName? : IgnoresSpelling Metric.ofName? := by
  intro n n' h
  unfold ofName?
  rw [h]

theorem MetricGroup.ignoresSpelling_ofName? : IgnoresSpelling MetricGroup.ofName? := by
  intro n n' h
  unfold ofName?
  rw [h]

namespace SameNames

variable {look : String → Option α} (hlook : IgnoresSpelling look) {l l' : List String}
  (h : SameNames look l l')
include hlook h

/-- Lists of the same names name the same. -/
theorem exists_look_iff (a : α) : (∃ n ∈ l, look n = some a) ↔ ∃ n ∈ l', look n = some a := by
  have hsame : ∀ n n', Respells look n n' → look n = look n' := by
    rintro n n' (rfl | ⟨-, heq⟩)
    · rfl
    · exact hlook n n' heq
  constructor
  · rintro ⟨n, hn, ha⟩
    obtain ⟨n', hn', hrespells⟩ := h.1 n hn
    exact ⟨n', hn', hsame n n' hrespells ▸ ha⟩
  · rintro ⟨n', hn', ha⟩
    obtain ⟨n, hn, hrespells⟩ := h.2 n' hn'
    exact ⟨n, hn, (hsame n n' hrespells).trans ha⟩

/-- The names that stand for nothing are the same, letter for letter. -/
theorem mem_unknown_iff (n : String) : n ∈ l ∧ look n = none ↔ n ∈ l' ∧ look n = none := by
  constructor
  · rintro ⟨hn, hnone⟩
    obtain ⟨n', hn', rfl | ⟨hsome, -⟩⟩ := h.1 n hn
    · exact ⟨hn', hnone⟩
    · rw [hnone] at hsome
      cases hsome
  · rintro ⟨hn', hnone⟩
    obtain ⟨n', hn, rfl | ⟨hsome, heq⟩⟩ := h.2 n hn'
    · exact ⟨hn, hnone⟩
    · rw [hlook n' n heq, hnone] at hsome
      cases hsome

end SameNames

/-- Two columns have the same settings, but for the spelling of what they ask for. -/
abbrev ColumnSettings.Respelled : ColumnSettings → ColumnSettings → Prop :=
  EqBesidesNames (SameNames Metric.ofName?) (SameNames MetricGroup.ofName?)

/-- Two configurations are the same, but for the spelling of what they ask for. -/
abbrev ScanConfiguration.Respelled : ScanConfiguration → ScanConfiguration → Prop :=
  EqBesidesNames (SameNames Metric.ofName?) (SameNames MetricGroup.ofName?)

section

variable {names names' groups groups' : List String}
  (hnames : SameNames Metric.ofName? names names')
  (hgroups : SameNames MetricGroup.ofName? groups groups')

include hnames in
theorem NamesMetric.respelled (m : Metric) : NamesMetric names m ↔ NamesMetric names' m :=
  hnames.exists_look_iff Metric.ignoresSpelling_ofName? m

include hgroups in
theorem NamesGroupOf.respelled (m : Metric) : NamesGroupOf groups m ↔ NamesGroupOf groups' m := by
  have hiff := hgroups.exists_look_iff MetricGroup.ignoresSpelling_ofName?
  constructor
  · rintro ⟨n, hn, g, hg, hm⟩
    obtain ⟨n', hn', hg'⟩ := (hiff g).mp ⟨n, hn, hg⟩
    exact ⟨n', hn', g, hg', hm⟩
  · rintro ⟨n, hn, g, hg, hm⟩
    obtain ⟨n', hn', hg'⟩ := (hiff g).mpr ⟨n, hn, hg⟩
    exact ⟨n', hn', g, hg', hm⟩

/-- Metrics in catalog order are the same if the same metrics are there. -/
theorem Metric.ordered_congr {ms ms' : List Metric} (h : ∀ m, m ∈ ms ↔ m ∈ ms') :
    ordered ms = ordered ms' := by
  refine List.filter_congr fun m _ ↦ ?_
  rw [Bool.eq_iff_iff, List.contains_iff_mem, List.contains_iff_mem, h]

include hnames hgroups

/-- Names stand for the same metrics in the same order. -/
theorem Selection.metrics_respelled :
    (Selection.ofNames names groups).metrics = (Selection.ofNames names' groups').metrics := by
  have hmem : ∀ m, m ∈ (Selection.ofNames names groups).metrics ↔
      m ∈ (Selection.ofNames names' groups').metrics := by
    intro m
    rw [Selection.mem_ofNames, Selection.mem_ofNames, NamesMetric.respelled hnames,
      NamesGroupOf.respelled hgroups]
  exact Metric.ordered_congr fun m ↦
    Metric.mem_ordered.symm.trans ((hmem m).trans Metric.mem_ordered)

/-- The same names are unknown. -/
theorem Selection.mem_unknown_respelled (e : CatalogError) :
    e ∈ (Selection.ofNames names groups).unknown ↔
      e ∈ (Selection.ofNames names' groups').unknown := by
  have hmetric := hnames.mem_unknown_iff Metric.ignoresSpelling_ofName?
  have hgroup := hgroups.mem_unknown_iff MetricGroup.ignoresSpelling_ofName?
  simp only [Selection.ofNames, List.mem_append, List.mem_map, List.mem_filter,
    Option.isNone_iff_eq_none, hmetric, hgroup]

end

/-! ### Columns -/

/-- A planned column without its issues. -/
def PlannedColumn.quiet (c : PlannedColumn) : PlannedColumn :=
  { c with findings := ⟨c.findings.requests, []⟩ }

/-- What is wanted of a column is the same, with the same issues in some order. -/
theorem Wanted.ofColumn_respelled (p : ColumnProfile) (scanWide : List Metric)
    {o o' : Option ColumnSettings} (h : Option.Rel ColumnSettings.Respelled o o') :
    (ofColumn p scanWide o).metrics = (ofColumn p scanWide o').metrics ∧
      (ofColumn p scanWide o).findings.requests = (ofColumn p scanWide o').findings.requests ∧
      ∀ i, i ∈ (ofColumn p scanWide o).findings.issues ↔
        i ∈ (ofColumn p scanWide o').findings.issues := by
  cases h with
  | none => exact ⟨rfl, rfl, fun _ ↦ .rfl⟩
  | @some s s' h =>
    have hmetrics := Selection.metrics_respelled h.metrics h.groups
    have hunknown := Selection.mem_unknown_respelled h.metrics h.groups
    have hnamed : ∀ m, (s.metrics.filterMap Metric.ofName?).contains m =
        (s'.metrics.filterMap Metric.ofName?).contains m := by
      intro m
      rw [Bool.eq_iff_iff, List.contains_iff_mem, List.contains_iff_mem, List.mem_filterMap,
        List.mem_filterMap]
      exact NamesMetric.respelled h.metrics m
    refine ⟨?_, ?_, fun i ↦ ?_⟩
    · simp only [ofColumn, hmetrics]
    · simp only [ofColumn, hmetrics]
    · simp only [ofColumn, hmetrics, hnamed, List.mem_append, List.mem_map, hunknown]

/-- A column is planned alike, but for the order of its issues. -/
theorem planColumn_respelled {c c' : ScanConfiguration} (h : c.Respelled c') (w : Warehouse)
    (source : QuerySource) (scanWide : List Metric) (column : TableColumn) :
    (planColumn w c source scanWide column).quiet =
        (planColumn w c' source scanWide column).quiet ∧
      ∀ i, i ∈ (planColumn w c source scanWide column).findings.issues ↔
        i ∈ (planColumn w c' source scanWide column).findings.issues := by
  have hrel := h.column? column.name
  have hprofile := ColumnProfile.ofColumn_congr hrel w column
  have hconditions := ColumnConditions.build_congr hrel w
  obtain ⟨hmetrics, hrequests, hissues⟩ := Wanted.ofColumn_respelled
    (ColumnProfile.ofColumn w column (c'.column? column.name)) scanWide hrel
  have hgroups : ∀ p conditions wanted, distributionGroups w c source p conditions wanted =
      distributionGroups w c' source p conditions wanted := by
    intro p conditions wanted
    rw [h.rest]
    rfl
  constructor
  · simp only [planColumn, PlannedColumn.quiet, hprofile, hconditions, hmetrics, hrequests, hgroups,
      h.columnTests_eq, sqlMetrics_congr hrel]
  · intro i
    simp only [planColumn, hprofile, hconditions, hmetrics, List.mem_append, hissues]

/-! ### Plans -/

namespace Draft

variable {d : Draft} {c : ScanConfiguration} (h : d.config.Respelled c)
include h

theorem metrics_respelled :
    d.selection.metrics = (Draft.selection { d with config := c }).metrics :=
  Selection.metrics_respelled h.metrics h.groups

/-- What the columns come to is the same, but for the order of their issues. -/
theorem flatMap_planned_respelled {β : Type} (f : PlannedColumn → List β)
    (hf : ∀ p, f p.quiet = f p) :
    d.planned.flatMap f = (Draft.planned { d with config := c }).flatMap f := by
  simp only [planned, List.flatMap_map, ← metrics_respelled h]
  refine List.flatMap_congr fun column _ ↦ ?_
  rw [← hf, (planColumn_respelled h d.warehouse d.source d.selection.metrics column).1, hf]

theorem measured_respelled : d.measured = Draft.measured { d with config := c } := by
  unfold measured scanWideFindings
  rw [← metrics_respelled h, flatMap_planned_respelled h _ fun _ ↦ rfl]

theorem customs_respelled : d.customs = Draft.customs { d with config := c } := by
  unfold customs declared
  rw [flatMap_planned_respelled h _ fun _ ↦ rfl, ← measured_respelled h, h.tableName_eq,
    h.sqlMetrics_eq]

theorem requests_respelled : d.requests = Draft.requests { d with config := c } := by
  unfold requests customKeys
  rw [← measured_respelled h, ← customs_respelled h]

theorem catalogGroups_respelled :
    d.catalogGroups = Draft.catalogGroups { d with config := c } := by
  unfold catalogGroups allAggregates
  rw [← requests_respelled h, flatMap_planned_respelled h PlannedColumn.groups fun _ ↦ rfl,
    flatMap_planned_respelled h PlannedColumn.aggregates fun _ ↦ rfl]

theorem compiled_respelled : d.compiled = Draft.compiled { d with config := c } := by
  unfold compiled tests
  rw [← requests_respelled h, ← customs_respelled h, h.tableName_eq, h.tests_eq,
    flatMap_planned_respelled h PlannedColumn.tests fun _ ↦ rfl]

/-- A plan is the same, but for the order of its issues. -/
theorem plan_eq_besides_issues :
    Draft.plan { d with config := c } =
      { d.plan with issues := (Draft.plan { d with config := c }).issues } := by
  have hparts : ∀ d : Draft, d.plan = ⟨d.config.tableName, d.columns, d.requests,
      numberGroups 0 (d.catalogGroups ++ d.customs.flatMap fun c ↦ c.group.toList),
      d.planned.flatMap PlannedColumn.derived, successes d.compiled, d.plan.issues⟩ := fun _ ↦ rfl
  rw [hparts { d with config := c }, ← requests_respelled h, ← catalogGroups_respelled h,
    ← customs_respelled h, ← compiled_respelled h,
    ← flatMap_planned_respelled h PlannedColumn.derived fun _ ↦ rfl, ← h.tableName_eq]
  rfl

/-- The issues of a plan are the same in some order. -/
theorem issues_respelled :
    d.plan.issues.Perm (Draft.plan { d with config := c }).issues := by
  have hscan : ∀ i, i ∈ (scanWideFindings d.selection).issues ↔
      i ∈ (scanWideFindings (Draft.selection { d with config := c })).issues := by
    intro i
    simp only [scanWideFindings, List.mem_map, selection,
      Selection.mem_unknown_respelled h.metrics h.groups]
  have hcolumns : ∀ i, (i ∈ d.planned.flatMap fun p ↦ p.findings.issues) ↔
      i ∈ (Draft.planned { d with config := c }).flatMap fun p ↦ p.findings.issues := by
    intro i
    simp only [planned, List.flatMap_map, List.mem_flatMap, ← metrics_respelled h,
      (planColumn_respelled h d.warehouse d.source d.selection.metrics _).2]
  rw [plan_issues, plan_issues, ← compiled_respelled h, ← customs_respelled h]
  refine List.Perm.append_right _ ?_
  rw [List.perm_ext_iff_of_nodup (nodup_mergeIssues _) (nodup_mergeIssues _)]
  intro i
  simp only [mem_mergeIssues, List.mem_append, hscan, hcolumns]

end Draft

/-- Planning depends on what is asked, not on how it is written: if the names in the lists of two
configurations differ in order, repetition and spelling only, both cannot be planned for the same
reason, or both plans are the same but for the order of their issues. -/
theorem ScanConfiguration.plan_respelled {c c' : ScanConfiguration} (h : c.Respelled c')
    (w : Warehouse) (cap : Nat) (columns : List TableColumn) :
    (∃ e, c.plan w cap columns = .error e ∧ c'.plan w cap columns = .error e) ∨
      ∃ p p', c.plan w cap columns = .ok p ∧ c'.plan w cap columns = .ok p' ∧
        p' = { p with issues := p'.issues } ∧ p.issues.Perm p'.issues := by
  unfold plan
  rw [← h.unknownColumn?_eq columns, ← h.source_eq w, ← h.tableName_eq]
  cases c.unknownColumn? columns with
  | some name => exact .inl ⟨_, rfl, rfl⟩
  | none =>
    cases c.source w with
    | error e => exact .inl ⟨e, rfl, rfl⟩
    | ok source =>
      let d : Draft := ⟨w, cap, c, columns, source⟩
      have hd : d.config.Respelled c' := h
      exact .inr ⟨d.plan, Draft.plan { d with config := c' }, rfl, rfl,
        Draft.plan_eq_besides_issues hd, Draft.issues_respelled hd⟩

/-- What is asked of the table of orders, in another order, twice and with capital letters. -/
def respelledOrders : ScanConfiguration :=
  { ScanConfiguration.ofTable "orders" with
    metrics := ["Histogram", "row_count", " MISSING_percentage", "Row_Count "]
    columns := Dict.empty.insert "email"
      { ColumnSettings.empty with metrics := ["UNIQUENESS", "uniqueness"] } }

/-- The table of orders is planned alike. -/
theorem respelledOrders_plan :
    ordersConfiguration.Respelled respelledOrders ∧
      ∃ p p', ordersConfiguration.plan .postgreSQL 2 ordersColumns = .ok p ∧
        respelledOrders.plan .postgreSQL 2 ordersColumns = .ok p' ∧
        p' = { p with issues := p'.issues } ∧ p.issues.Perm p'.issues := by
  have hcolumns : ∀ key, Option.Rel ColumnSettings.Respelled (ordersConfiguration.columns.get? key)
      (respelledOrders.columns.get? key) := by
    intro key
    simp only [ordersConfiguration, respelledOrders, Dict.get?_insert, Dict.get?_empty]
    split
    · exact .some ⟨by decide +kernel, by decide +kernel, rfl⟩
    · exact .none
  have h : ordersConfiguration.Respelled respelledOrders :=
    ⟨by decide +kernel, by decide +kernel, hcolumns, rfl⟩
  refine ⟨h, ?_⟩
  obtain ⟨p, hplan⟩ : ∃ p, ordersConfiguration.plan .postgreSQL 2 ordersColumns = .ok p :=
    ScanConfiguration.exists_plan (by decide) rfl
  rcases ScanConfiguration.plan_respelled h .postgreSQL 2 ordersColumns with
    ⟨e, herror, -⟩ | hplans
  · rw [hplan] at herror
    cases herror
  · exact hplans

end DataQuality
