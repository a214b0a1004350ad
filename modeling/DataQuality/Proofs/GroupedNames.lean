import DataQuality.Proofs.GroupedTests
import DataQuality.Proofs.Verdicts

/-!
# Names in grouped tests

The names of a grouped test are looked for among the lowercase names of the columns, as they are
written. So a name reads the cells of a column exactly if it is the lowercase name of the column and
no other column of that lowercase name hides it. A name in capitals reads nothing, even if the
column is written in the same capitals.
-/

namespace DataQuality

/-! ### Names that are bound to cells -/

/-- A name that stands for a cell is bound to it. -/
theorem BoundName.ofRow_of_cell? {row : GroupRow Value} {name : String} {v : Value}
    (h : row.cell? name = some v) : BoundName.ofRow row name = BoundName.ofValue name v := by
  unfold GroupRow.cell? at h
  rw [ofRow, h]

/-- A name that stands for no cell is an error. -/
theorem BoundName.ofRow_of_cell?_eq_none {row : GroupRow Value} {name : String}
    (h : row.cell? name = none) :
    BoundName.ofRow row name = .error (.unavailable name "not a column of the result") := by
  unfold GroupRow.cell? at h
  rw [ofRow, h]

/-- A name is bound to the cell that it stands for, if that is a scalar. -/
theorem BoundName.ofRow_eq_ok_iff {row : GroupRow Value} {name : String} {b : BoundName} :
    BoundName.ofRow row name = .ok b ↔
      b.name = name ∧ row.cell? name = some b.value ∧ b.value.Is b.scalar := by
  cases hcell : row.cell? name with
  | none => simp [ofRow_of_cell?_eq_none hcell]
  | some v =>
    obtain ⟨other, w, s⟩ := b
    rw [ofRow_of_cell? hcell, ofValue]
    constructor
    · intro h
      obtain ⟨s', hs, heq⟩ := exists_of_map_eq_ok h
      cases heq
      exact ⟨rfl, rfl, Value.toScalar_eq_ok_iff.mp hs⟩
    · rintro ⟨rfl, hw, hs⟩
      obtain rfl : v = w := Option.some.inj hw
      have hscalar : v.toScalar other = .ok s := Value.toScalar_eq_ok_iff.mpr hs
      dsimp only
      rw [hscalar]
      rfl

namespace CompiledTest

variable {t : CompiledTest} {row : GroupRow Value} {name : String} {v : Value}

/-- The result for a row shows for a name of the test what it was bound to. -/
theorem get?_values_judge (hname : name ∈ t.expression.identifiers) :
    (t.judge row).values.get? name = (BoundName.ofRow row name).toOption.map BoundName.value := by
  have hvalues : (successes (t.expression.identifiers.map (BoundName.ofRow row))).map
      (fun b ↦ (b.name, b.value)) = t.expression.identifiers.filterMap fun n ↦
        ((BoundName.ofRow row n).toOption.map BoundName.value).map fun v ↦ (n, v) := by
    rw [successes, List.filterMap_map, List.map_filterMap]
    refine List.filterMap_congr fun n _ ↦ ?_
    rw [Function.comp_apply]
    cases h : BoundName.ofRow row n with
    | error e => rfl
    | ok b =>
      obtain ⟨rfl, -⟩ := BoundName.ofRow_eq_ok_iff.mp h
      rfl
  change (Dict.ofList ((successes _).map _)).get? name = _
  rw [hvalues, Dict.get?_ofList_filterMap, if_pos hname]

/-- The result for a row shows for a name of the test the cell that it stands for, if that is a
scalar. -/
theorem get?_values_judge_iff (hname : name ∈ t.expression.identifiers) :
    (t.judge row).values.get? name = some v ↔ row.cell? name = some v ∧ ∃ s, v.Is s := by
  rw [get?_values_judge hname, Option.map_eq_some_iff]
  constructor
  · rintro ⟨b, hb, rfl⟩
    cases hbound : BoundName.ofRow row name with
    | error e =>
      rw [hbound] at hb
      cases hb
    | ok b' =>
      rw [hbound] at hb
      obtain rfl := Option.some.inj hb
      obtain ⟨-, hcell, hs⟩ := BoundName.ofRow_eq_ok_iff.mp hbound
      exact ⟨hcell, _, hs⟩
  · rintro ⟨hcell, s, hs⟩
    have hbound : BoundName.ofRow row name = .ok ⟨name, v, s⟩ :=
      BoundName.ofRow_eq_ok_iff.mpr ⟨rfl, hcell, hs⟩
    exact ⟨⟨name, v, s⟩, by rw [hbound]; rfl, rfl⟩

/-- In a result for a row the name stands for the value: it was bound to nothing else, and it is
shown with the value, if that is a scalar. -/
structure Reads (t : CompiledTest) (res : TestResult) (name : String) (v : Value) : Prop where
  bound : ∃ row, res = t.judge row ∧ BoundName.ofRow row name = BoundName.ofValue name v
  shown : ∀ s, v.Is s → res.values.get? name = some v

/-- A name reads the cell that it stands for. -/
theorem reads_of_cell? (hname : name ∈ t.expression.identifiers) (h : row.cell? name = some v) :
    t.Reads (t.judge row) name v where
  bound := ⟨row, rfl, BoundName.ofRow_of_cell? h⟩
  shown s hs := (get?_values_judge_iff hname).mpr ⟨h, s, hs⟩

end CompiledTest

/-! ### Columns that hide others -/

/-- A column hides another of the same lowercase name if it was measured and the other one names the
group, or if it comes later and both are of the same kind. -/
def ColumnHides (fields header : List String) (k j : Nat) : Prop :=
  ∃ a b, header[k]? = some a ∧ header[j]? = some b ∧ Text.lower a = Text.lower b ∧
    (isFieldAt fields header k = false ∧ isFieldAt fields header j = true ∨
      isFieldAt fields header k = isFieldAt fields header j ∧ j < k)

/-- Columns of different lowercase names do not hide each other. -/
theorem not_columnHides_of_nodup {fields header : List String}
    (h : (header.map Text.lower).Nodup) (k j : Nat) : ¬ ColumnHides fields header k j := by
  rintro ⟨a, b, ha, hb, hsame, hkind⟩
  obtain rfl : k = j := by
    have hk := (List.getElem?_eq_some_iff.mp ha).1
    refine (List.getElem?_inj (by simpa using hk) h).mp ?_
    rw [List.getElem?_map, List.getElem?_map, ha, hb, Option.map_some, Option.map_some, hsame]
  obtain ⟨hvalue, hfield⟩ | ⟨-, hlater⟩ := hkind
  · rw [hvalue] at hfield
    cases hfield
  · exact Nat.lt_irrefl k hlater

/-- In a full row a name stands for the cell of the column with that lowercase name that is not
hidden. -/
theorem cell?_groupedRow_eq_some_iff {fields header : List String} {row : List Value}
    (hfull : row.length = header.length) {name : String} {v : Value} :
    (groupedRow fields header row).cell? name = some v ↔
      ∃ j column w, header[j]? = some column ∧ row[j]? = some w ∧ Text.lower column = name ∧
        w.retyped (!isFieldAt fields header j) = v ∧ ∀ k, ¬ ColumnHides fields header k j := by
  unfold groupedRow
  rw [Rows.cell?_groupRow_eq_some_iff]
  simp only [Rows.NamedCell.Hides, contains_filter_isFieldAt]
  constructor
  · rintro ⟨c, hc, hname, hv, hshown⟩
    obtain ⟨column, hcolumn, hvalue, hlower⟩ := Rows.mem_namedCells.mp hc
    refine ⟨c.position, column, c.value, hcolumn, hvalue, hlower.symm.trans hname, hv, ?_⟩
    rintro k ⟨a, b, ha, hb, hsame, hkind⟩
    obtain rfl := Option.some.inj (hb.symm.trans hcolumn)
    obtain ⟨w, hw⟩ : ∃ w, row[k]? = some w := by
      have hlt := (List.getElem?_eq_some_iff.mp ha).1
      exact ⟨_, List.getElem?_eq_getElem (hfull ▸ hlt)⟩
    exact hshown ⟨Text.lower a, k, w⟩ (Rows.mem_namedCells.mpr ⟨a, ha, hw, rfl⟩)
      ⟨hsame.trans hlower.symm, hkind⟩
  · rintro ⟨j, column, w, hcolumn, hw, hname, hv, hshown⟩
    refine ⟨⟨Text.lower column, j, w⟩, Rows.mem_namedCells.mpr ⟨column, hcolumn, hw, rfl⟩, hname,
      hv, ?_⟩
    rintro other hother ⟨hsame, hkind⟩
    obtain ⟨a, ha, -, hlower⟩ := Rows.mem_namedCells.mp hother
    exact hshown other.position ⟨a, column, ha, hcolumn, hlower.symm.trans hsame, hkind⟩

/-- A row that tells its columns apart: each holds its position. -/
def positionRow (header : List String) : List Value :=
  (List.range header.length).map fun i : Nat ↦ .int i

theorem length_positionRow (header : List String) :
    (positionRow header).length = header.length := by
  simp [positionRow]

theorem getElem?_positionRow {header : List String} {i : Nat} {column : String}
    (h : header[i]? = some column) : (positionRow header)[i]? = some (.int i) := by
  have hlt := (List.getElem?_eq_some_iff.mp h).1
  simp [positionRow, hlt]

/-- In the row of positions a name that stands for the position of a column is the lowercase name of
the column, and the column is not hidden. -/
theorem of_cell?_positionRow {fields header : List String} {name column : String} {j : Nat}
    (hcolumn : header[j]? = some column)
    (h : (groupedRow fields header (positionRow header)).cell? name = some (.int j)) :
    name = Text.lower column ∧ ∀ k, ¬ ColumnHides fields header k j := by
  obtain ⟨i, other, w, hother, hw, hname, hv, hshown⟩ :=
    (cell?_groupedRow_eq_some_iff (length_positionRow header)).mp h
  obtain rfl : Value.int i = w := Option.some.inj ((getElem?_positionRow hother).symm.trans hw)
  obtain rfl : i = j := Int.ofNat.inj (Value.int.inj hv)
  obtain rfl : other = column := Option.some.inj (hother.symm.trans hcolumn)
  exact ⟨hname.symm, hshown⟩

/-! ### Names of planned tests -/

/-- Let nothing but one query write the key of a grouped test, and take a name of the test and a
column of a header. In every scan in which the query comes back under this header with full rows,
the name reads the cell of the column in every row, exactly if the header has all group fields, the
name is the lowercase name of the column, and no other column of that lowercase name hides it. -/
theorem ScanConfiguration.readsColumn_iff {w : Warehouse} {cap : Nat} {config : ScanConfiguration}
    {columns : List TableColumn} {p : Plan} (hplan : config.plan w cap columns = .ok p)
    {t : CompiledTest} (ht : t ∈ p.tests) {key : MetricKey} (hgrouped : t.grouped = some key)
    (honce : (p.written.map Prod.fst).count key = 1) {name : String}
    (hname : name ∈ t.expression.identifiers) {header : List String} {j : Nat} {column : String}
    (hcolumn : header[j]? = some column) :
    ∃ m fields g, config.GroupsRows columns p m fields key g ∧
      ((∀ (scan : Scan) (r : Run) (result : ScanResult), scan.ReportsRun p r result →
          ∀ u ∈ r.turns, ∀ rows, u.outcome = g.answered m.metric.sql none (.ok rows) →
            rows.columns = header → (∀ row ∈ rows.rows, row.length = header.length) →
              List.Forall₂ (fun row res ↦ ∃ v, row[j]? = some v ∧
                  t.Reads res name (v.retyped (!isFieldAt fields header j)))
                rows.rows (t.evaluate (r.ledger.derive p.derived).measurements)) ↔
        HasFields fields header ∧ name = Text.lower column ∧
          ∀ k, ¬ ColumnHides fields header k j) := by
  obtain ⟨_, source, _, rfl⟩ := ScanConfiguration.plan_eq_ok_iff.mp hplan
  let d : Draft := ⟨w, cap, config, columns, source⟩
  obtain ⟨m, fields, g, hrows⟩ := Draft.exists_groupsRows (d := d) ht hgrouped
  refine ⟨m, fields, g, hrows, fun hreads ↦ ?_, ?_⟩
  · -- One row that tells the columns apart shows which of them is read.
    let scan := Scan.ofConfiguration w config
    let rows : Rows := ⟨header, [positionRow header]⟩
    have hreports := scan.reports_chosen d.plan (.answering scan.dialect rows)
    obtain ⟨u, hu, hanswered⟩ :=
      Draft.exists_answered_turn (d := d) scan rows hrows.group hrows.query
    obtain ⟨v, hv, honly, hjudges⟩ :=
      Scan.ReportsRun.exists_judgesRows (d := d) hreports hrows honce hgrouped
    obtain rfl : u = v := (honly u hu).mp (by rw [hanswered]; rfl)
    have hread := hreads scan _ _ hreports u hu rows hanswered rfl
      (List.forall_mem_singleton.mpr (length_positionRow header))
    obtain ⟨res, others, ⟨v, hv, hres⟩, -, hresults⟩ := List.forall₂_cons_left_iff.mp hread
    obtain rfl : Value.int j = v :=
      Option.some.inj ((getElem?_positionRow hcolumn).symm.trans hv)
    have hvalue : res.values.get? name = some (.int j) := hres.shown _ (.int j)
    by_cases hfields : HasFields fields header
    · rw [hjudges.each rows hanswered (.inr hfields)] at hresults
      obtain rfl := (List.cons.inj hresults).1
      exact ⟨hfields, of_cell?_positionRow hcolumn
        ((CompiledTest.get?_values_judge_iff hname).mp hvalue).1⟩
    · obtain ⟨e, he⟩ := hjudges.lacking rows hanswered (by simpa [rows] using hfields)
      rw [he] at hresults
      obtain rfl := (List.cons.inj hresults).1
      cases hvalue
  · rintro ⟨hfields, hlower, hshown⟩ scan r result hreports u hu rows hanswered hheader hfull
    obtain ⟨v, hv, honly, hjudges⟩ :=
      Scan.ReportsRun.exists_judgesRows (d := d) hreports hrows honce hgrouped
    obtain rfl : u = v := (honly u hu).mp (by rw [hanswered]; rfl)
    subst hheader
    rw [hjudges.each rows hanswered (.inr hfields), List.forall₂_map_right_iff, List.forall₂_same]
    intro row hrow
    obtain ⟨v, hv⟩ : ∃ v, row[j]? = some v := by
      have hlt := (List.getElem?_eq_some_iff.mp hcolumn).1
      exact ⟨_, List.getElem?_eq_getElem ((hfull row hrow).symm ▸ hlt)⟩
    exact ⟨v, hv, CompiledTest.reads_of_cell? hname ((cell?_groupedRow_eq_some_iff
      (hfull row hrow)).mpr ⟨j, column, v, hcolumn, hv, hlower.symm, rfl, hshown⟩)⟩

/-- The totals are read by their lowercase name, in whatever case their column is written. -/
theorem totalsConfiguration_reads :
    let p := (totalsDraft ["country"] "total").plan
    let rows : Rows := ⟨["Country", "TOTAL"], [[.text "NL", .int 4]]⟩
    (totalsConfiguration ["country"] "total").plan .postgreSQL 0 tallyColumns = .ok p ∧
      (p.written.map Prod.fst).count (.ofTable "totals") = 1 ∧
      ∃ t ∈ p.tests, t.grouped = some (.ofTable "totals") ∧
        "total" ∈ t.expression.identifiers ∧
        ∃ result, ((Scan.ofConfiguration .postgreSQL
            (totalsConfiguration ["country"] "total")).execute (.ofAnswers (answerRows rows)) p).2 =
              .ok result ∧
          ∃ res, result.tests = [res] ∧ t.Reads res "total" (.int 4) := by
  intro p rows
  have hspells : Token.Spells "total".toList (.identifier "total") :=
    Token.spells_identifier_iff.mpr ⟨⟨'t', "otal".toList, by decide, by decide⟩, rfl⟩
  have hplan := plan_totalsConfiguration ["country"] "total"
  have honce := count_written_totalsDraft ["country"] (by simp) "total"
  obtain ⟨t, htests, hgrouped, hnames⟩ := exists_tests_totalsDraft ["country"] (by simp) hspells
  have ht : t ∈ p.tests := htests ▸ List.mem_singleton_self t
  have hname : "total" ∈ t.expression.identifiers := hnames ▸ .head _
  let scan := Scan.ofConfiguration .postgreSQL (totalsConfiguration ["country"] "total")
  have hcolumn : rows.columns[1]? = some "TOTAL" := rfl
  obtain ⟨m, fields, g, hrows, hreads⟩ :=
    ScanConfiguration.readsColumn_iff hplan ht hgrouped honce hname hcolumn
  obtain rfl := fields_of_totalsConfiguration hrows
  obtain ⟨u, hu, hanswered⟩ := Draft.exists_answered_turn scan rows hrows.group hrows.query
  have hread := hreads.mpr ⟨by decide, by decide +kernel,
      fun k ↦ not_columnHides_of_nodup (by decide +kernel) k 1⟩
    scan _ _ (scan.reports_chosen p (.answering scan.dialect rows)) u hu rows hanswered rfl
    (List.forall_mem_singleton.mpr rfl)
  obtain ⟨res, others, ⟨v, hv, hres⟩, hrest, hresults⟩ := List.forall₂_cons_left_iff.mp hread
  cases hv
  cases hrest
  refine ⟨hplan, honce, t, ht, hgrouped, hname, _, Scan.execute_answerRows rfl p rows, res, ?_,
    hres⟩
  change p.tests.flatMap _ = _
  rw [htests, List.flatMap_singleton]
  exact hresults

/-- With a test of `Total` and a column `Total`, the test says that there is no such column. -/
theorem totalsConfiguration_misses_column :
    let p := (totalsDraft ["country"] "Total").plan
    let rows : Rows := ⟨["country", "Total"], [[.text "NL", .int 4]]⟩
    (totalsConfiguration ["country"] "Total").error? = none ∧
      (totalsConfiguration ["country"] "Total").plan .postgreSQL 0 tallyColumns = .ok p ∧
      (p.written.map Prod.fst).count (.ofTable "totals") = 1 ∧
      (∃ t ∈ p.tests, t.grouped = some (.ofTable "totals") ∧ "Total" ∈ t.expression.identifiers) ∧
      ∃ result, ((Scan.ofConfiguration .postgreSQL
          (totalsConfiguration ["country"] "Total")).execute (.ofAnswers (answerRows rows)) p).2 =
            .ok result ∧
        ∃ res, result.tests = [res] ∧ res.outcome = .error ∧
          res.error = some "'Total' has no value: not a column of the result" := by
  intro p rows
  have hspells : Token.Spells "Total".toList (.identifier "Total") :=
    Token.spells_identifier_iff.mpr ⟨⟨'T', "otal".toList, by decide, by decide⟩, rfl⟩
  obtain ⟨t, ht, hgrouped, hnames, result, hresult, htests⟩ :=
    exists_result_totalsConfiguration ["country"] (by simp) hspells rows (by decide)
  let row := groupedRow ["country"] rows.columns [.text "NL", .int 4]
  have hverdict : t.verdict (t.expression.identifiers.map (BoundName.ofRow row)) =
      .error (.unavailable "Total" "not a column of the result") := by
    rw [hnames, List.map_singleton, BoundName.ofRow_of_cell?_eq_none rfl]
    rfl
  have hrefused : (t.judge row).outcome = .error ∧
      (t.judge row).error = some "'Total' has no value: not a column of the result" := by
    rw [CompiledTest.judge, CompiledTest.resultOf, hverdict]
    exact ⟨rfl, rfl⟩
  exact ⟨by decide, plan_totalsConfiguration ["country"] "Total",
    count_written_totalsDraft ["country"] (by simp) "Total",
    ⟨t, ht, hgrouped, hnames ▸ .head _⟩, result, hresult, _, htests, hrefused⟩

end DataQuality
