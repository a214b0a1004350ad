import DataQuality.Proofs.CustomReports

/-!
# Outputs named by position

A custom query may give names to the columns of its result in order. What is recorded under a name
is the cell of a column that the result itself calls so, if there is one, and only otherwise the
cell in the place of the name. So the names stand for their places exactly if no column of the
result that has one of the names holds something else than the place of the name.
-/

namespace DataQuality

/-- The names of a query stand for the cells of a row: what the result has for each of them is the
cell in its place, with a text that reads as a number read back. -/
def DeclaredMetric.NamesCells (d : DeclaredMetric) (names : List String) (row : List Value)
    (result : ScanResult) : Prop :=
  ∀ (i : Nat) (n : String), names[i]? = some n → ∃ v : Value, row[i]? = some v ∧
    result.measurement? (d.key n) = some ⟨d.key n, .measured (v.retyped true), false⟩

/-- No column of the rows misleads about a name: where the rows have a column that is called so, the
row holds in it what it holds in the place of the name. -/
def Rows.KeepsPlaces (rows : Rows) (names : List String) (row : List Value) : Prop :=
  ∀ (i : Nat) (n : String), names[i]? = some n → ∀ j, rows.columnIndex? n = some j →
    (row[j]?).map (Value.retyped true) = (row[i]?).map (Value.retyped true)

/-- Columns that have none of the names mislead about none. -/
theorem Rows.keepsPlaces_of_columnIndex? {rows : Rows} {names : List String}
    (h : ∀ n ∈ names, rows.columnIndex? n = none) (row : List Value) :
    rows.KeepsPlaces names row := by
  intro i n hn j hj
  rw [h n (List.mem_of_getElem? hn)] at hj
  cases hj

namespace DeclaredMetric

variable {d : DeclaredMetric}

/-- The binding of a name has the place of the name. -/
theorem getElem?_positional (d : DeclaredMetric) (position : Nat) (names : List String) (i : Nat) :
    (d.positional position names)[i]? =
      (names[i]?).map fun n ↦ d.binding n (some (position + i)) := by
  induction names generalizing position i with
  | nil => rfl
  | cons name rest ih =>
    cases i with
    | zero => rfl
    | succ i =>
      rw [positional, List.getElem?_cons_succ, List.getElem?_cons_succ, ih, Nat.add_right_comm,
        Nat.add_assoc]

/-- Names are bound as keys of the query, in order. -/
theorem map_key_positional (d : DeclaredMetric) (position : Nat) (names : List String) :
    (d.positional position names).map Binding.key = names.map d.key := by
  induction names generalizing position with
  | nil => rfl
  | cons name rest ih => rw [positional, List.map_cons, ih, List.map_cons]; rfl

/-- Different names have different keys. -/
theorem key_injective (d : DeclaredMetric) : Function.Injective d.key := by
  intro n m h
  exact congrArg MetricKey.name h

/-- Names for the columns of the only row are bound in order. -/
theorem outputs_of_metricNames {names : List String} (hnames : d.metric.metricNames = some names) :
    d.outputs = d.positional 0 names := by
  unfold outputs
  rw [hnames]

end DeclaredMetric

/-- What a binding with a place reads from one row: the cell of the column that is called so, or
else the cell in its place. -/
theorem Rows.read_singleRow {rows : Rows} {row : List Value} (hrow : rows.rows = [row])
    (range : Option BucketRange) {b : Binding} {i : Nat} (hb : b.position = some i) {v : Value} :
    rows.read .singleRow range b = .ok v ↔
      (row[(rows.columnIndex? b.resultColumn).getD i]?).map (Value.retyped true) = some v := by
  unfold read cell
  rw [hrow, hb]
  cases rows.columnIndex? b.resultColumn with
  | none => cases hcell : row[i]? <;> simp [hcell, Except.map]
  | some j => cases hcell : row[j]? <;> simp [hcell, Except.map]

/-- When a group is answered with one row, the result has for each name that it binds in order the
cell of the column that is called so, or else the cell in its place. -/
theorem Scan.ReportsRun.measurement?_name {draft : Draft} {scan : Scan} {r : Run}
    {result : ScanResult} (h : scan.ReportsRun draft.plan r result) {d : DeclaredMetric}
    {names tests : List String} (hdistinct : names.Nodup) {g : QueryGroup}
    (hg : g ∈ draft.plan.groups)
    (hspec : g.toGroupSpec = d.groupOf ⟨.singleRow, d.positional 0 names, tests, none⟩) {i : Nat}
    {n : String} (hn : names[i]? = some n) (hrow : d.key n ≠ .ofTable Metric.rowCount.name)
    (hschema : d.key n ≠ .ofTable schemaMetric) {t : Turn} (ht : t ∈ r.turns) {sql : String}
    {rows : Rows} (hanswered : t.outcome = g.answered sql none (.ok rows)) {row : List Value}
    (hone : rows.rows = [row]) {v : Value} :
    result.measurement? (d.key n) = some ⟨d.key n, .measured v, false⟩ ↔
      (row[(rows.columnIndex? n).getD i]?).map (Value.retyped true) = some v := by
  have hnodup : g.keys.Nodup := by
    rw [hspec]
    change ((d.positional 0 names).map Binding.key).Nodup
    rw [d.map_key_positional]
    exact hdistinct.map d.key_injective
  have hbinding : d.binding n (some i) ∈ g.bindings := by
    rw [hspec]
    refine List.mem_of_getElem? (i := i) ?_
    rw [DeclaredMetric.groupOf, d.getElem?_positional, hn, Option.map_some, Nat.zero_add]
  have hresult : result.measurement? (d.key n) = _ := h.measurement?_of_answered hg
    (by rw [hspec]; rfl) hnodup hbinding hrow hschema ht hanswered
  have hshape : g.shape = .singleRow := by rw [hspec]; rfl
  rw [hresult, hshape]
  refine .trans ?_ (Rows.read_singleRow hone none (b := d.binding n (some i)) rfl)
  cases rows.read .singleRow none (d.binding n (some i)) <;>
    simp [Binding.measure, DeclaredMetric.binding]

/-- A query that gives names to the columns of its only row, and that no issue is about, is planned
as a group that binds all of the names in order. -/
theorem Draft.exists_group_of_metricNames {draft : Draft} {d : DeclaredMetric}
    (hd : d ∈ draft.declared) (hkind : d.metric.kind = .numeric)
    (hplain : d.metric.isGrouped = false) {names : List String}
    (hnames : d.metric.metricNames = some names) (haccepted : draft.plan.Accepts d) :
    ∃ g ∈ draft.plan.groups,
      g.toGroupSpec = d.groupOf ⟨.singleRow, d.positional 0 names, d.metric.tests, none⟩ := by
  obtain ⟨f, hf, hgroup, -⟩ := Draft.exists_of_accepts hd haccepted
  rw [DeclaredMetric.form?_of_plain hkind hplain,
    DeclaredMetric.outputs_of_metricNames hnames] at hf
  cases hf
  exact hgroup

/-- Let a query without issues give different names to the columns of its result, none of which is
the number of rows or the name for the columns of the table. It is planned as a group that binds all
of the names, and whenever the group is answered with one row that has a cell for each name, the
names stand for the cells in their places exactly if no column of the result misleads about a
name. -/
theorem ScanConfiguration.namesCells_iff_keepsPlaces {w : Warehouse} {cap : Nat}
    {config : ScanConfiguration} {columns : List TableColumn} {p : Plan}
    (hplan : config.plan w cap columns = .ok p) {d : DeclaredMetric}
    (hd : d ∈ config.customQueries columns) (hkind : d.metric.kind = .numeric)
    (hplain : d.metric.isGrouped = false) {names : List String}
    (hnames : d.metric.metricNames = some names) (hdistinct : names.Nodup)
    (hfree : ∀ n ∈ names,
      d.key n ≠ .ofTable Metric.rowCount.name ∧ d.key n ≠ .ofTable schemaMetric)
    (haccepted : p.Accepts d) :
    ∃ g ∈ p.groups, g.label = d.label ∧ g.query = .sql d.metric.sql ∧ g.keys = names.map d.key ∧
      ∀ (scan : Scan) (r : Run) (result : ScanResult), scan.ReportsRun p r result →
        ∀ t ∈ r.turns, ∀ (rows : Rows) (row : List Value),
        t.outcome = g.answered d.metric.sql none (.ok rows) → rows.rows = [row] →
        names.length ≤ row.length →
        (d.NamesCells names row result ↔ rows.KeepsPlaces names row) := by
  obtain ⟨_, source, _, rfl⟩ := ScanConfiguration.plan_eq_ok_iff.mp hplan
  let draft : Draft := ⟨w, cap, config, columns, source⟩
  have hdeclared : d ∈ draft.declared := by
    rw [draft.declared_eq]
    exact hd
  obtain ⟨g, hg, hspec⟩ :=
    Draft.exists_group_of_metricNames hdeclared hkind hplain hnames haccepted
  refine ⟨g, hg, by rw [hspec]; rfl, by rw [hspec]; rfl, ?_, ?_⟩
  · rw [hspec]
    exact d.map_key_positional 0 names
  intro scan r result (hreports : scan.ReportsRun draft.plan r result) t ht rows row hanswered hone
    hlength
  have hmeasured : ∀ (i : Nat) (n : String), names[i]? = some n → ∀ v,
      result.measurement? (d.key n) = some ⟨d.key n, .measured v, false⟩ ↔
        (row[(rows.columnIndex? n).getD i]?).map (Value.retyped true) = some v := by
    intro i n hn v
    obtain ⟨hrow, hschema⟩ := hfree n (List.mem_of_getElem? hn)
    exact hreports.measurement?_name hdistinct hg hspec hn hrow hschema ht hanswered hone
  constructor
  · intro h i n hn j hj
    obtain ⟨v, hv, hresult⟩ := h i n hn
    rw [hmeasured i n hn, hj] at hresult
    rw [hv]
    exact hresult
  · intro h i n hn
    have hi : i < names.length := (List.getElem?_eq_some_iff.mp hn).1
    have hcell : row[i]? = some row[i] :=
      List.getElem?_eq_getElem (Nat.lt_of_lt_of_le hi hlength)
    refine ⟨row[i], hcell, ?_⟩
    rw [hmeasured i n hn]
    cases hj : rows.columnIndex? n with
    | none => rw [Option.getD_none, hcell, Option.map_some]
    | some j => rw [Option.getD_some, h i n hn j hj, hcell, Option.map_some]

/-- The draft of the plan of a tally. -/
def tallyDraft (names : List String) : Draft :=
  ⟨.postgreSQL, 0, tallyConfiguration names, tallyColumns,
    .withFilter (Warehouse.postgreSQL.qualifyTable "orders") none⟩

/-- It is the plan of its configuration. -/
theorem plan_tallyConfiguration (names : List String) :
    (tallyConfiguration names).plan .postgreSQL 0 tallyColumns = .ok (tallyDraft names).plan :=
  ScanConfiguration.plan_eq_ok_iff.mpr ⟨rfl, _, rfl, rfl⟩

/-- The plan of a tally without a clash has no issue. -/
private theorem issues_tallyDraft : (tallyDraft ["open", "closed"]).plan.issues = [] ∧
    (tallyDraft ["b", "a"]).plan.issues = [] := by
  have hissues : ∀ names, (tallyDraft names).plan.issues = (assemblePlan 0
      (tallyConfiguration names) tallyColumns
      (.withFilter (Warehouse.postgreSQL.qualifyTable "orders") none) ⟨[], []⟩
      (tallyColumns.map fun c ↦
        ⟨.ofColumn .postgreSQL c none, ⟨[], []⟩, [], [], [], [], []⟩)).issues := by
    intro names
    have hplan := plan_tallyConfiguration names
    rw [ScanConfiguration.plan_of_nothing rfl rfl rfl rfl] at hplan
    rw [← Except.ok.inj hplan]
    rfl
  rw [hissues, hissues]
  exact ⟨rfl, rfl⟩

/-- The names of a tally stand for their places in a result that has other names for its columns. -/
theorem tallyConfiguration_namesCells :
    let d : DeclaredMetric := ⟨none, 0, tallyQuery ["open", "closed"]⟩
    let p := (tallyDraft ["open", "closed"]).plan
    (tallyConfiguration ["open", "closed"]).plan .postgreSQL 0 tallyColumns = .ok p ∧
      d ∈ (tallyConfiguration ["open", "closed"]).customQueries tallyColumns ∧ p.Accepts d ∧
      ∃ result, ((Scan.ofConfiguration .postgreSQL (tallyConfiguration ["open", "closed"])).execute
          tallySession p).2 = .ok result ∧
        d.NamesCells ["open", "closed"] [.int 4, .int 2] result := by
  intro d p
  have hplan := plan_tallyConfiguration ["open", "closed"]
  have hd : d ∈ (tallyConfiguration ["open", "closed"]).customQueries tallyColumns := .head _
  have haccepted : p.Accepts d := Plan.accepts_of_issues issues_tallyDraft.1 d
  obtain ⟨g, hg, -, hquery, -, hnames⟩ := ScanConfiguration.namesCells_iff_keepsPlaces hplan hd rfl
    rfl rfl (by decide) (by decide) haccepted
  let scan := Scan.ofConfiguration .postgreSQL (tallyConfiguration ["open", "closed"])
  let chosen := tallyTurns scan.dialect
  obtain ⟨measured, ht⟩ := Draft.exists_chosen_turn scan chosen hg
  refine ⟨hplan, hd, haccepted, scan.chosenResult p chosen, execute_tallySession rfl p, ?_⟩
  refine (hnames scan _ _ (scan.reports_chosen p chosen) _ ht ⟨["a", "b"], _⟩ _
    (g.run_of_sql hquery _ _ measured) rfl (by decide)).mpr ?_
  exact Rows.keepsPlaces_of_columnIndex? (by decide) _

/-- If the names of a tally are those of the columns of its result in another order, each of them
stands for the cell in the place of the other. -/
theorem tallyConfiguration_swaps_cells :
    let p := (tallyDraft ["b", "a"]).plan
    (tallyConfiguration ["b", "a"]).plan .postgreSQL 0 tallyColumns = .ok p ∧ p.issues = [] ∧
      ∃ result, ((Scan.ofConfiguration .postgreSQL (tallyConfiguration ["b", "a"])).execute
          tallySession p).2 = .ok result ∧
        result.measurement? (.ofTable "b") = some ⟨.ofTable "b", .measured (.int 2), false⟩ ∧
        result.measurement? (.ofTable "a") = some ⟨.ofTable "a", .measured (.int 4), false⟩ := by
  intro p
  let d : DeclaredMetric := ⟨none, 0, tallyQuery ["b", "a"]⟩
  have haccepted : p.Accepts d := Plan.accepts_of_issues issues_tallyDraft.2 d
  have hd : d ∈ (tallyDraft ["b", "a"]).declared := by
    rw [Draft.declared_eq]
    exact .head _
  obtain ⟨g, hg, hspec⟩ := Draft.exists_group_of_metricNames hd rfl rfl rfl haccepted
  let scan := Scan.ofConfiguration .postgreSQL (tallyConfiguration ["b", "a"])
  let rows : Rows := ⟨["a", "b"], [[.int 4, .int 2]]⟩
  let chosen := tallyTurns scan.dialect
  obtain ⟨measured, ht⟩ := Draft.exists_chosen_turn scan chosen hg
  have hreports := scan.reports_chosen p chosen
  have hanswered : (chosen.turn g measured).outcome = g.answered d.metric.sql none (.ok rows) :=
    g.run_of_sql (by rw [hspec]; rfl) _ _ measured
  refine ⟨plan_tallyConfiguration _, issues_tallyDraft.2, scan.chosenResult p chosen,
    execute_tallySession rfl p, ?_, ?_⟩
  · exact (hreports.measurement?_name (by decide) hg hspec (i := 0) rfl (by decide) (by decide) ht
      hanswered rfl).mpr rfl
  · exact (hreports.measurement?_name (by decide) hg hspec (i := 1) rfl (by decide) (by decide) ht
      hanswered rfl).mpr rfl

end DataQuality
