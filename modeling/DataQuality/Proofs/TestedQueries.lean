import DataQuality.Proofs.CustomQueries
import DataQuality.Proofs.ImpliedTests

/-!
# Tested queries

A query with one value may have a name and tests of it. Without tests the name stands for the first
cell of the row, unless a column of the result is called so. With a test that refers to the name,
the name is the name of a column, and the measurement fails if the result has no such column. The
tests change nothing else about what the query measures.
-/

namespace DataQuality

/-- If nothing but one name is there, it is there once. -/
theorem sortNames_eq_singleton {names : List String} {n : String} (hmem : n ∈ names)
    (hall : ∀ m ∈ names, m = n) : sortNames names = [n] := by
  have hsorted := pairwise_sortNames names
  have hall' : ∀ m ∈ sortNames names, m = n := fun m hm ↦ hall m (mem_sortNames.mp hm)
  have hmem' : n ∈ sortNames names := mem_sortNames.mpr hmem
  generalize sortNames names = sorted at hsorted hall' hmem'
  cases sorted with
  | nil => cases hmem'
  | cons a rest =>
    obtain ⟨ha, hrest⟩ := List.forall_mem_cons.mp hall'
    cases rest with
    | nil => rw [ha]
    | cons b rest =>
      have hlt : a < b := (List.pairwise_cons.mp hsorted).1 b (.head rest)
      rw [ha, hrest b (.head rest)] at hlt
      exact absurd hlt (String.lt_irrefl n)

namespace DeclaredMetric

variable {d : DeclaredMetric} {n : String}

/-- The query without its tests. -/
def untested (d : DeclaredMetric) : DeclaredMetric :=
  { d with metric := { d.metric with tests := [] } }

/-- A test of the query takes the name for that of a column of the result. -/
def NamesColumn (d : DeclaredMetric) (n : String) : Prop :=
  ∃ source ∈ d.metric.tests, n ∈ columnNames source

/-- The tests of the query can be read, and refer to the name and to metrics of the catalog only. -/
def TestsOnly (d : DeclaredMetric) (n : String) : Prop :=
  ∀ source ∈ d.metric.tests, ∃ x, TestExpression.parse source = .ok x ∧
    ∀ name ∈ x.identifiers, name = n ∨ (Metric.ofName? name).isSome = true

/-- A test takes for columns what it refers to, unless that has a dot or is in the catalog. -/
theorem mem_columnNames {source name : String} :
    name ∈ columnNames source ↔ ∃ x, TestExpression.parse source = .ok x ∧ name ∈ x.identifiers ∧
      '.' ∉ name.toList ∧ Metric.ofName? name = none := by
  unfold columnNames
  cases TestExpression.parse source <;> simp

/-- Tests that refer to one name and the catalog only take nothing else for a column. -/
theorem TestsOnly.eq_of_mem_columnNames (h : d.TestsOnly n) {name : String}
    (hname : name ∈ d.metric.tests.flatMap columnNames) : name = n := by
  obtain ⟨source, hsource, hname⟩ := List.mem_flatMap.mp hname
  obtain ⟨x, hx, hall⟩ := h source hsource
  obtain ⟨x', hx', hmem, -, hnone⟩ := mem_columnNames.mp hname
  rw [hx] at hx'
  obtain rfl := Except.ok.inj hx'
  refine (hall name hmem).resolve_right ?_
  rw [hnone]
  exact Bool.false_ne_true

/-- A query with a name binds the name: to a column if its tests take the name for one, and
otherwise to the first place. -/
theorem outputs_of_testsOnly (h : d.TestsOnly n) (hname : d.metric.name = some n)
    (hnames : d.metric.metricNames = none) :
    (d.NamesColumn n → d.outputs = [d.binding n none]) ∧
      (¬ d.NamesColumn n → d.outputs = [d.binding n (some 0)]) := by
  unfold outputs
  rw [hnames, hname]
  constructor
  · rintro ⟨source, hsource, hmem⟩
    rw [sortNames_eq_singleton (List.mem_flatMap.mpr ⟨source, hsource, hmem⟩) fun _ hm ↦
      h.eq_of_mem_columnNames hm]
    rfl
  · intro hnot
    have hnone : d.metric.tests.flatMap columnNames = [] := by
      rw [List.eq_nil_iff_forall_not_mem]
      intro name hmem
      obtain rfl := h.eq_of_mem_columnNames hmem
      exact hnot (List.mem_flatMap.mp hmem)
    rw [hnone]
    rfl

/-- A query of which one measurement comes is planned with it, unless it is blank or the key is
planned already. -/
theorem group_plan_of_outputs (hkind : d.metric.kind = .numeric)
    (hplain : d.metric.isGrouped = false) {b : Binding} (h : d.outputs = [b]) (table : String)
    (known : List MetricKey) :
    (d.plan table known).group =
      if Text.isBlank d.metric.sql = true ∨ b.key ∈ known then none
      else some ⟨.custom, d.label, .sql d.metric.sql, .singleRow, [b]⟩ := by
  unfold plan
  rw [form?_of_plain hkind hplain, h]
  by_cases hblank : Text.isBlank d.metric.sql = true
  · rw [if_pos hblank, if_pos (.inl hblank)]
  · by_cases hknown : b.key ∈ known <;>
      simp [planForm, hblank, hknown]

end DeclaredMetric

namespace Rows

/-- A binding to a column reads what a binding to the first place reads, if the result has the
column or the row is empty. -/
theorem cell_binding_eq_iff (rows : Rows) (row : List Value) (d : DeclaredMetric) (n : String) :
    rows.cell row (d.binding n none) = rows.cell row (d.binding n (some 0)) ↔
      (rows.columnIndex? n).isSome = true ∨ row = [] := by
  unfold cell DeclaredMetric.binding
  dsimp only
  cases rows.columnIndex? n with
  | some i => simp
  | none => cases row <;> simp

/-- Without the column, a binding to it fails where a binding to the first place reads. -/
theorem reading_of_columnIndex?_eq_none {rows : Rows} {d : DeclaredMetric} {n : String}
    (hcolumn : rows.columnIndex? n = none) {v : Value} {rest : List Value}
    (hrows : rows.rows = [v :: rest]) :
    let reading (b : Binding) : Reading := (b.measure (rows.read .singleRow none b)).reading
    reading (d.binding n none) = .failed ("result has no column '" ++ n ++ "'") ∧
      reading (d.binding n (some 0)) = .measured (v.retyped true) := by
  unfold read cell DeclaredMetric.binding
  rw [hrows]
  dsimp only
  rw [hcolumn]
  exact ⟨rfl, rfl⟩

end Rows

/-- Let a query of one value have a name, and let its tests refer to the name and to metrics of the
catalog only. With and without its tests, one measurement of the same key is planned, unless the
query is blank or the key is planned already. The tests leave alone which cell it reads, exactly if
none of them takes the name for a column, or the result has a column of the name, or the row is
empty. Otherwise the measurement fails with the tests, and is the first cell without them. -/
theorem DeclaredMetric.cell_untested_iff {d : DeclaredMetric} {n : String}
    (hkind : d.metric.kind = .numeric) (hplain : d.metric.isGrouped = false)
    (hname : d.metric.name = some n) (hnames : d.metric.metricNames = none) (htests : d.TestsOnly n)
    (table : String) (known : List MetricKey) :
    (Text.isBlank d.metric.sql = true ∨ d.key n ∈ known) ∧
        (d.plan table known).group = none ∧ (d.untested.plan table known).group = none ∨
      ∃ b b' : Binding, b.key = d.key n ∧ b'.key = d.key n ∧
        (d.plan table known).group =
          some ⟨.custom, d.label, .sql d.metric.sql, .singleRow, [b]⟩ ∧
        (d.untested.plan table known).group =
          some ⟨.custom, d.label, .sql d.metric.sql, .singleRow, [b']⟩ ∧
        ∀ rows : Rows,
          (∀ row, rows.cell row b = rows.cell row b' ↔
            (d.NamesColumn n → (rows.columnIndex? n).isSome = true ∨ row = [])) ∧
          (d.NamesColumn n → rows.columnIndex? n = none → ∀ v rest, rows.rows = [v :: rest] →
            (b.measure (rows.read .singleRow none b)).reading =
                .failed ("result has no column '" ++ n ++ "'") ∧
              (b'.measure (rows.read .singleRow none b')).reading =
                .measured (v.retyped true)) := by
  obtain ⟨hcolumn, hplace⟩ := outputs_of_testsOnly htests hname hnames
  have huntested : d.untested.outputs = [d.binding n (some 0)] :=
    (outputs_of_testsOnly (d := d.untested) (fun _ h ↦ by cases h) hname hnames).2
      fun ⟨_, h, _⟩ ↦ by cases h
  have hplan' := group_plan_of_outputs (d := d.untested) hkind hplain huntested table known
  by_cases hnone : Text.isBlank d.metric.sql = true ∨ d.key n ∈ known
  · refine .inl ⟨hnone, ?_, hplan'.trans (if_pos hnone)⟩
    by_cases hused : d.NamesColumn n
    · exact (group_plan_of_outputs hkind hplain (hcolumn hused) table known).trans (if_pos hnone)
    · exact (group_plan_of_outputs hkind hplain (hplace hused) table known).trans (if_pos hnone)
  · right
    by_cases hused : d.NamesColumn n
    · have hplan := group_plan_of_outputs hkind hplain (hcolumn hused) table known
      refine ⟨_, _, rfl, rfl, hplan.trans (if_neg hnone), hplan'.trans (if_neg hnone),
        fun rows ↦ ⟨fun row ↦ ?_, fun _ hmissing v rest hrows ↦ ?_⟩⟩
      · rw [rows.cell_binding_eq_iff]
        exact ⟨fun h _ ↦ h, fun h ↦ h hused⟩
      · exact Rows.reading_of_columnIndex?_eq_none hmissing hrows
    · have hplan := group_plan_of_outputs hkind hplain (hplace hused) table known
      exact ⟨_, _, rfl, rfl, hplan.trans (if_neg hnone), hplan'.trans (if_neg hnone),
        fun rows ↦ ⟨fun row ↦ iff_of_true rfl fun h ↦ absurd h hused, fun h ↦ absurd h hused⟩⟩

/-- A query for the number of orders, with a test that there are none. -/
def totalQuery : DeclaredMetric where
  column := none
  index := 0
  metric :=
    { SqlMetric.numeric "SELECT COUNT(*) FROM orders" with
      name := some "total"
      tests := ["total" ++ " == 0"] }

/-- The test refers to the name of the query only. -/
private theorem parse_totalQuery : TestExpression.parse ("total" ++ " == 0") =
    .ok ⟨Text.trim ("total" ++ " == 0"), zeroTree "total"⟩ := by
  have hspells : Token.Spells "total".toList (.identifier "total") :=
    Token.spells_identifier_iff.mpr ⟨⟨'t', "otal".toList, by decide, by decide⟩, rfl⟩
  rw [TestExpression.parse, Expr.parse_append_zero hspells]
  rfl

private theorem testsOnly_totalQuery : totalQuery.TestsOnly "total" := by
  intro source hsource
  obtain rfl := List.mem_singleton.mp hsource
  exact ⟨_, parse_totalQuery, by decide⟩

private theorem namesColumn_totalQuery : totalQuery.NamesColumn "total" :=
  ⟨_, .head _, DeclaredMetric.mem_columnNames.mpr
    ⟨_, parse_totalQuery, by decide, by decide, by decide⟩⟩

/-- The number of orders is measured with and without the test if the column is called so, in
capitals too. -/
theorem totalQuery_cell_untested :
    totalQuery.TestsOnly "total" ∧
      ∃ b b' : Binding,
        (totalQuery.plan "orders" []).group =
          some ⟨.custom, "sql_metrics[0]", .sql "SELECT COUNT(*) FROM orders", .singleRow, [b]⟩ ∧
        (totalQuery.untested.plan "orders" []).group =
          some ⟨.custom, "sql_metrics[0]", .sql "SELECT COUNT(*) FROM orders", .singleRow, [b']⟩ ∧
        (Rows.mk ["TOTAL"] [[.int 0]]).cell [.int 0] b =
          (Rows.mk ["TOTAL"] [[.int 0]]).cell [.int 0] b' := by
  obtain ⟨hnone, -⟩ | ⟨b, b', -, -, hplan, hplan', hcells⟩ :=
    DeclaredMetric.cell_untested_iff rfl rfl rfl rfl testsOnly_totalQuery "orders" []
  · exact absurd hnone (by decide)
  · refine ⟨testsOnly_totalQuery, b, b', hplan, hplan', ((hcells _).1 _).mpr fun _ ↦ .inl ?_⟩
    decide

/-- If the warehouse calls the column of the number `count`, the test turns the measurement from the
number into a failure. -/
theorem totalQuery_fails_tested :
    let rows : Rows := ⟨["count"], [[.int 0]]⟩
    totalQuery.TestsOnly "total" ∧
      ∃ g g' : GroupSpec, (totalQuery.plan "orders" []).group = some g ∧
        (totalQuery.untested.plan "orders" []).group = some g' ∧
        (g.measure rows none).map Measurement.reading = [.failed "result has no column 'total'"] ∧
        (g'.measure rows none).map Measurement.reading = [.measured (.int 0)] := by
  intro rows
  have hcolumn : rows.columnIndex? "total" = none := by decide
  have houtputs : totalQuery.outputs = [totalQuery.binding "total" none] :=
    (DeclaredMetric.outputs_of_testsOnly testsOnly_totalQuery rfl rfl).1 namesColumn_totalQuery
  have hunknown : ¬ (Text.isBlank totalQuery.metric.sql = true ∨
      (totalQuery.binding "total" none).key ∈ []) := by decide
  have hplan := DeclaredMetric.group_plan_of_outputs rfl rfl houtputs "orders" []
  obtain ⟨hfailed, hmeasured⟩ :=
    Rows.reading_of_columnIndex?_eq_none (d := totalQuery) hcolumn rfl
  refine ⟨testsOnly_totalQuery, _, _, hplan.trans (if_neg hunknown), rfl, ?_, ?_⟩
  · exact congrArg (fun r ↦ [r]) hfailed
  · exact congrArg (fun r ↦ [r]) hmeasured

end DataQuality
