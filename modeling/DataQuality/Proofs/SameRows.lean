import DataQuality.Proofs.Capabilities

/-!
# The same rows

All queries of a plan read one source: the table, perhaps a sample of it, with the filter of the
scan. Those about the values of a column read its valid rows, and wherever missing or valid rows are
counted, that is by the conditions of the column. So what is measured is comparable.
-/

namespace DataQuality

/-! ### Sources -/

/-- The conditions that a scan sets for all rows: its filter, unless that is blank. -/
def ScanConfiguration.rowFilter (config : ScanConfiguration) : List String :=
  (config.filter.filter fun f ↦ !Text.isBlank f).toList

/-- The text of the source of a scan: the table, with the clause for the sample if one is drawn. -/
def ScanConfiguration.ReadsFrom (w : Warehouse) (config : ScanConfiguration) (table : String) :
    Prop :=
  match config.samplePercentage with
  | none => table = w.qualifyTable config.tableName
  | some percentage => ∃ unit ∈ ["", " PERCENT"],
      table = w.qualifyTable config.tableName ++ (" TABLESAMPLE " ++ config.sampleMethod.name ++
        " (" ++ Number.plainText percentage ++ unit ++ ")")

/-- The clause that holds rows to conditions: one stands as it is, several in parentheses each. -/
def restriction : List String → String
  | [] => ""
  | [condition] => "\nWHERE " ++ condition
  | conditions => "\nWHERE " ++ Text.join " AND " (conditions.map fun c ↦ "(" ++ c ++ ")")

/-- The source of a scan is held to its filter and to a further condition. -/
theorem QuerySource.fromClause_withFilter (table : String) (config : ScanConfiguration)
    (predicate : Option String) :
    (QuerySource.withFilter table config.filter).fromClause predicate =
      "FROM " ++ table ++ restriction (config.rowFilter ++ predicate.toList) := by
  unfold fromClause whereClause withFilter ScanConfiguration.rowFilter
  apply String.toList_injective
  cases config.filter.filter fun f ↦ !Text.isBlank f <;> cases predicate <;>
    simp [restriction, Text.join]

/-- The clause of a sample names the method and the share. -/
theorem Warehouse.exists_of_sampleClause {w : Warehouse} {percentage : Float}
    {method : SampleMethod} {clause : String} (h : w.sampleClause percentage method = .ok clause) :
    ∃ unit ∈ ["", " PERCENT"], clause =
      "TABLESAMPLE " ++ method.name ++ " (" ++ Number.plainText percentage ++ unit ++ ")" := by
  unfold sampleClause at h
  cases w
  case bigQuery =>
    cases method
    · cases h
      exact ⟨" PERCENT", .tail _ (.head _), by simp [SampleMethod.name, String.append_assoc]⟩
    · cases h
  all_goals
    exact ⟨"", .head _, by rw [← (require_eq_ok_iff.mp h).2, String.append_empty]⟩

/-- A scan reads its table or a sample of it, and drops the rows that do not pass its filter. -/
theorem ScanConfiguration.exists_readsFrom {w : Warehouse} {config : ScanConfiguration}
    {source : QuerySource} (h : config.source w = .ok source) :
    ∃ table, config.ReadsFrom w table ∧ source = .withFilter table config.filter := by
  unfold ReadsFrom
  unfold ScanConfiguration.source at h
  cases hsample : config.samplePercentage with
  | none =>
    rw [hsample] at h
    exact ⟨_, rfl, (Except.ok.inj h).symm⟩
  | some percentage =>
    simp only [hsample] at h
    split at h
    · next clause hclause =>
      obtain ⟨unit, hunit, rfl⟩ := Warehouse.exists_of_sampleClause hclause
      refine ⟨_, ⟨unit, hunit, rfl⟩, ?_⟩
      rw [← Except.ok.inj h]
      congr 1
      apply String.toList_injective
      simp
    · cases h

/-! ### Queries -/

/-- What may stand behind the conditions on the rows in a query over the values of a column. -/
def regroupings : List String :=
  ["\nGROUP BY ", "\n  GROUP BY ", ") AS dq_buckets\nGROUP BY "]

/-- What a query over the values of a column selects: the values or the buckets they belong to, and
how often they occur. Nothing in it goes by a condition on rows of the column. -/
inductive ColumnProfile.Selects (w : Warehouse) (p : ColumnProfile) : String → Prop
  | values : Selects w p ("SELECT " ++ w.castToText p.expr ++ " AS " ++ valueColumn ++ "\n")
  | frequencies : Selects w p ("SELECT " ++ w.castToText p.expr ++ " AS " ++ valueColumn ++
      ", COUNT(*) AS " ++ frequencyColumn ++ "\n")
  | duplicates : Selects w p ("SELECT COUNT(*) AS dq_distinct, " ++
      Warehouse.countIf (frequencyColumn ++ " = 1") ++ " AS dq_unique, " ++
      Warehouse.countIf (frequencyColumn ++ " > 1") ++ " AS dq_duplicate\nFROM (SELECT " ++
      p.expr ++ " AS " ++ valueColumn ++ ", COUNT(*) AS " ++ frequencyColumn ++ "\n  ")
  | buckets (b : Bucketing) : Selects w p ("SELECT " ++ bucketColumn ++ ", COUNT(*) AS " ++
      frequencyColumn ++ "\nFROM (SELECT " ++ b.sql w (p.numericExpr w) ++ " AS " ++
      bucketColumn ++ "\n  ")

/-- A query over the values of a column in the rows of a table that meet the conditions. -/
def ColumnProfile.SelectsRows (w : Warehouse) (p : ColumnProfile) (table : String)
    (conditions : List String) (sql : String) : Prop :=
  ∃ selected start rest, p.Selects w selected ∧ start ∈ regroupings ∧
    sql = selected ++ ("FROM " ++ table ++ restriction conditions) ++ start ++ rest

theorem ColumnProfile.SelectsRows.append {w : Warehouse} {p : ColumnProfile} {table : String}
    {conditions : List String} {sql : String} (h : p.SelectsRows w table conditions sql)
    (more : String) : p.SelectsRows w table conditions (sql ++ more) := by
  obtain ⟨selected, start, rest, hselected, hstart, rfl⟩ := h
  exact ⟨selected, start, rest ++ more, hselected, hstart, String.append_assoc⟩

/-- A query that a group may ask: the one that is known, or its histogram between any bounds. -/
inductive GroupSpec.Renders (w : Warehouse) (g : GroupSpec) : String → Prop
  | known {text : String} (h : g.query = .sql text) : Renders w g text
  | between {q : HistogramQuery} {low high : Float} {text : String}
      (hquery : g.query = .histogram q) (h : q.render w low high = .ok text) : Renders w g text

/-- Whatever was measured before, a group asks only what it may. -/
theorem GroupSpec.renders_of_step {w : Warehouse} {g : GroupSpec} {measured : MeasurementSet}
    {sql : String} {range : Option BucketRange} (h : g.step w measured = .ask sql range) :
    g.Renders w sql := by
  unfold step at h
  split at h
  · next text hquery =>
    cases h
    exact .known hquery
  · next q hquery =>
    split at h
    · cases h
    · cases h
    · split at h
      · next text hrender =>
        cases h
        exact .between hquery hrender
      · cases h

namespace DistributionContext

variable {c : DistributionContext} {table : String} {config : ScanConfiguration}

/-- Every query over the values of a column, the histogram between any bounds included, reads the
rows of the source that pass the filter and are valid. -/
theorem selectsRows_of_renders (hsource : c.source = .withFilter table config.filter)
    {g : GroupSpec} (hg : g ∈ c.groups) {sql : String} (h : g.Renders c.warehouse sql) :
    c.profile.SelectsRows c.warehouse table (config.rowFilter ++ [c.valid]) sql := by
  have hfrom : c.source.fromClause (some c.valid) =
      "FROM " ++ table ++ restriction (config.rowFilter ++ [c.valid]) := by
    rw [hsource]
    exact QuerySource.fromClause_withFilter table config (some c.valid)
  have hbase : ∀ {selected start}, c.profile.Selects c.warehouse selected → start ∈ regroupings →
      c.profile.SelectsRows c.warehouse table (config.rowFilter ++ [c.valid])
        (selected ++ c.source.fromClause (some c.valid) ++ start) := by
    intro selected start hselected hstart
    exact ⟨selected, start, "", hselected, hstart, by rw [hfrom, String.append_empty]⟩
  have hgroup : "\nGROUP BY " ∈ regroupings := .head _
  have hinner : "\n  GROUP BY " ∈ regroupings := .tail _ (.head _)
  have hbuckets : ") AS dq_buckets\nGROUP BY " ∈ regroupings := .tail _ (.tail _ (.head _))
  obtain ⟨-, -, ⟨text, htext, hquery⟩ | ⟨-, hquery⟩⟩ := cases_of_mem_groups hg
  · obtain rfl : text = sql := by
      cases h with
      | known h => exact GroupQuery.sql.inj (hquery.symm.trans h)
      | between h => exact absurd (hquery.symm.trans h) (by simp)
    simp only [texts, List.mem_cons, List.not_mem_nil, or_false] at htext
    rcases htext with rfl | rfl | rfl | rfl
    · exact ((hbase .duplicates hinner).append _).append _
    · exact (((((((hbase .frequencies hgroup).append _).append _).append _).append _).append
        _).append _).append _
    · exact (((((hbase .values hgroup).append _).append _).append _).append _).append _
    · exact (((((hbase .values hgroup).append _).append _).append _).append _).append _
  · cases h with
    | known h => exact absurd (hquery.symm.trans h) (by simp)
    | between h hrender =>
      obtain rfl := GroupQuery.histogram.inj (hquery.symm.trans h)
      rw [← (Warehouse.require_eq_ok_iff.mp hrender).2]
      exact (((hbase (.buckets _) hbuckets).append _).append _).append _

end DistributionContext

/-! ### Aggregates -/

namespace Warehouse

/-- The text before and behind what an aggregate function is applied to. -/
def around (w : Warehouse) (f : AggregateFunction) : String × String :=
  match w with
  | .postgreSQL | .mySQL | .bigQuery =>
    ("CAST(" ++ w.aggregateName f ++ "(", ") AS " ++ w.numericType ++ ")")
  | .sqlite | .snowflake => (w.aggregateName f ++ "(", ")")

/-- The text before and behind what a median is taken of. -/
def aroundMedian (w : Warehouse) : String × String :=
  let continuous := "PERCENTILE_CONT(" ++ Number.plainText 0.5 ++ ") WITHIN GROUP (ORDER BY "
  match w with
  | .bigQuery =>
    ("APPROX_QUANTILES(",
      ", 100 IGNORE NULLS)[OFFSET(" ++ Number.natText (quantileOffset 0.5).toNat ++ ")]")
  | .postgreSQL => ("CAST(" ++ continuous, ") AS " ++ w.numericType ++ ")")
  | .mySQL | .sqlite | .snowflake => (continuous, ")")

variable {w : Warehouse} {expr sql : String}

theorem eq_around_of_aggregate {f : AggregateFunction} (h : w.aggregate f expr = .ok sql) :
    sql = (w.around f).1 ++ expr ++ (w.around f).2 := by
  have htext : sql = w.castAggregate (w.aggregateName f ++ "(" ++ expr ++ ")") := by
    unfold aggregate at h
    dsimp only at h
    split at h
    · exact (require_eq_ok_iff.mp h).2.symm
    · exact (Except.ok.inj h).symm
  rw [htext]
  apply String.toList_injective
  cases w <;> simp [castAggregate, around, cast]

theorem eq_aroundMedian_of_percentile (h : w.percentile expr 0.5 = .ok sql) :
    sql = w.aroundMedian.1 ++ expr ++ w.aroundMedian.2 := by
  rw [← (require_eq_ok_iff.mp h).2]
  unfold aroundMedian
  -- Neither the share nor the offset is computed.
  generalize Number.plainText 0.5 = share
  generalize (quantileOffset 0.5).toNat = offset
  apply String.toList_injective
  cases w <;> simp [castAggregate, cast]

end Warehouse

/-- What a metric aggregates: it counts the rows that are missing or those that are valid, or it is
taken over the values of the valid rows, which are numbers or lengths of texts. -/
inductive Metric.TakenOver (w : Warehouse) (p : ColumnProfile) (c : ColumnConditions) :
    Metric → String → Prop
  | missing : TakenOver w p c .missingCount (Warehouse.countIf c.missing.sql)
  | valid : TakenOver w p c .validCount (Warehouse.countIf c.valid.sql)
  | numbers {m : Metric} {f : AggregateFunction} (hm : m.aggregateForm? = some (.numbers f)) :
    TakenOver w p c m
      ((w.around f).1 ++ Warehouse.valueIf c.valid.sql (p.numericExpr w) ++ (w.around f).2)
  | lengths {m : Metric} {f : AggregateFunction} (hm : m.aggregateForm? = some (.lengths f)) :
    TakenOver w p c m
      ((w.around f).1 ++ Warehouse.valueIf c.valid.sql (w.lengthExpr (p.textExpr w)) ++
        (w.around f).2)
  | median : TakenOver w p c .median
      (w.aroundMedian.1 ++ Warehouse.valueIf c.valid.sql (p.numericExpr w) ++ w.aroundMedian.2)

/-- The aggregate of a metric of a column reads rows by the conditions of the column only. -/
theorem AggregateForm.takenOver {w : Warehouse} {p : ColumnProfile} {c : ColumnConditions}
    {m : Metric} {form : AggregateForm} {sql : String} (hrow : m ≠ .rowCount)
    (hform : m.aggregateForm? = some form) (h : form.sql w p c = .ok sql) :
    m.TakenOver w p c sql := by
  cases form with
  | rows => cases m <;> simp_all [Metric.aggregateForm?]
  | missingRows =>
    obtain rfl : m = .missingCount := by cases m <;> simp_all [Metric.aggregateForm?]
    exact Except.ok.inj h ▸ .missing
  | validRows =>
    obtain rfl : m = .validCount := by cases m <;> simp_all [Metric.aggregateForm?]
    exact Except.ok.inj h ▸ .valid
  | numbers f => exact Warehouse.eq_around_of_aggregate h ▸ .numbers hform
  | median =>
    obtain rfl : m = .median := by cases m <;> simp_all [Metric.aggregateForm?]
    exact Warehouse.eq_aroundMedian_of_percentile h ▸ .median
  | lengths f => exact Warehouse.eq_around_of_aggregate h ▸ .lengths hform

/-- An aggregate of a column is that of a metric, under the conditions of the column. -/
theorem ColumnPlan.takenOver_of_mem_aggregates {w : Warehouse} {p : ColumnProfile}
    {conditions : Except DialectError ColumnConditions} {available : List Metric}
    {resolved : List ResolvedMetric} {a : AggregateExpr}
    (h : a ∈ (ofMetrics w p conditions available resolved).aggregates) :
    ∃ m c, a.key = p.metricKey m ∧ conditions = .ok c ∧ m.TakenOver w p c a.sql := by
  induction resolved generalizing available with
  | nil => cases h
  | cons first rest ih =>
    unfold ofMetrics at h
    split at h
    · exact ih h
    · next hrow =>
      split at h
      · next how hhow =>
        obtain ⟨-, ⟨form, c, sql, hform, hc, hsql, rfl⟩ | ⟨-, rfl⟩ | ⟨-, -, rfl⟩⟩ :=
          producer_cases hhow
        · rcases List.mem_cons.mp h with rfl | h
          · exact ⟨first.metric, c, rfl, (conditionsFor_eq_ok_iff.mp hc).1,
              AggregateForm.takenOver hrow hform hsql⟩
          · exact ih h
        · exact ih h
        · exact ih h
      · unfold ColumnPlan.drop at h
        split at h <;> exact ih h

/-! ### Aggregate queries -/

/-- An expression that a query selects, with the name of the result column that a binding reads. -/
def Binding.selects (b : Binding) (expr : String) : String :=
  "  " ++ expr ++ " AS " ++ b.resultColumn

/-- The expression that measures a key: the number of all rows, or an aggregate of the metric of a
column. -/
def ScanConfiguration.Measures (w : Warehouse) (config : ScanConfiguration)
    (columns : List TableColumn) (key : MetricKey) (expr : String) : Prop :=
  (key = .ofTable Metric.rowCount.name ∧ expr = countRows) ∨
    ∃ column ∈ columns, ∃ (m : Metric) (c : ColumnConditions),
      key = .ofColumn (Text.lower column.name) m.name ∧ config.conditions w column = .ok c ∧
        m.TakenOver w (config.profile w column) c expr

/-- The query of a batch selects one expression for each of its bindings. -/
theorem batchQuery_eq (source : QuerySource) (internal : MetricKey → Bool) (label : String)
    (batch : List NamedAggregate) :
    batchQuery source batch =
      "SELECT\n" ++ Text.join ",\n" (List.zipWith Binding.selects
        (batchGroup source internal label batch).bindings (batch.map fun a ↦ a.expr.sql)) ++
        "\n" ++ source.fromClause none := by
  have hitems : ∀ position, List.zipWith Binding.selects (batchBindings internal position batch)
      (batch.map fun a ↦ a.expr.sql) =
        batch.map fun a ↦ "  " ++ a.expr.sql ++ " AS " ++ a.resultColumn := by
    induction batch with
    | nil => intro _; rfl
    | cons a rest ih =>
      intro position
      rw [batchBindings, List.map_cons, List.zipWith_cons_cons, ih, List.map_cons]
      rfl
  rw [batchGroup, hitems]
  rfl

/-- What an aggregate group asks: one expression for each of its bindings, over the rows of the
source. -/
theorem exists_of_mem_aggregateGroups {cap : Nat} {source : QuerySource}
    {internal : MetricKey → Bool} {as : List AggregateExpr} {g : GroupSpec}
    (h : g ∈ aggregateGroups cap source internal as) :
    ∃ exprs, List.Forall₂ (fun key expr ↦ ⟨key, expr⟩ ∈ as) g.keys exprs ∧
      g.query = .sql ("SELECT\n" ++
        Text.join ",\n" (List.zipWith Binding.selects g.bindings exprs) ++ "\n" ++
          source.fromClause none) := by
  obtain ⟨⟨batch, index⟩, hbatch, rfl⟩ := List.mem_map.mp h
  dsimp only
  generalize batchLabel _ index = label
  refine ⟨batch.map fun a ↦ a.expr.sql, ?_, ?_⟩
  swap
  · rw [← batchQuery_eq]
    rfl
  have hkeys : (batchGroup source internal label batch).keys = batch.map fun a ↦ a.expr.key := by
    have hentries := congrArg (List.map Prod.fst) (entries_batchBindings internal 0 batch)
    rw [List.map_map, List.map_map] at hentries
    exact hentries
  rw [hkeys, List.forall₂_map_left_iff, List.forall₂_map_right_iff, List.forall₂_same]
  intro a ha
  have hmem : a ∈ nameAggregates 0 as := by
    rw [← flatten_chunksOf (if cap = 0 then (nameAggregates 0 as).length else cap)
      (nameAggregates 0 as)]
    exact List.mem_flatten_of_mem (List.fst_mem_of_mem_zipIdx hbatch) ha
  rw [← map_expr_nameAggregates 0 as]
  exact List.mem_map_of_mem hmem

/-! ### Plans -/

namespace Draft

variable {d : Draft}

/-- Every aggregate measures the number of rows, or a metric of a column by its conditions. -/
theorem measures_of_mem_allAggregates {a : AggregateExpr}
    (h : a ∈ allAggregates d.requests d.planned) :
    d.config.Measures d.warehouse d.columns a.key a.sql := by
  have hcolumns : a ∈ d.planned.flatMap PlannedColumn.aggregates →
      d.config.Measures d.warehouse d.columns a.key a.sql := by
    intro h
    obtain ⟨planned, hplanned, ha⟩ := List.mem_flatMap.mp h
    obtain ⟨column, hcolumn, rfl⟩ := List.mem_map.mp hplanned
    change a ∈ (ColumnPlan.ofWanted d.warehouse (d.config.profile d.warehouse column)
      (d.config.conditions d.warehouse column) _).aggregates at ha
    unfold ColumnPlan.ofWanted at ha
    split at ha
    · obtain ⟨m, c, hkey, hc, htaken⟩ := ColumnPlan.takenOver_of_mem_aggregates ha
      exact .inr ⟨column, hcolumn, m, c, hkey, hc, htaken⟩
    · cases ha
  unfold allAggregates at h
  dsimp only at h
  split at h
  · rcases List.mem_cons.mp h with rfl | h
    · exact .inl ⟨rfl, rfl⟩
    · exact hcolumns h
  · exact hcolumns h

/-- The groups of the first phase are those of the aggregates. -/
theorem mem_aggregateGroups_of_phase {g : QueryGroup} (h : g ∈ d.plan.groups)
    (hphase : g.phase = .aggregate) :
    g.toGroupSpec ∈ aggregateGroups d.cap d.source (isInternal d.requests)
      (allAggregates d.requests d.planned) := by
  rw [plan_groups] at h
  rcases List.mem_append.mp (mem_of_mem_numberGroups h) with hcatalog | hcustom
  · rcases List.mem_append.mp hcatalog with haggregate | hcolumns
    · exact haggregate
    · obtain ⟨planned, hplanned, hmem⟩ := List.mem_flatMap.mp hcolumns
      obtain ⟨column, -, rfl⟩ := List.mem_map.mp hplanned
      rw [phase_of_mem_planColumn hmem] at hphase
      cases hphase
  · rw [(phase_of_mem_customGroups hcustom).1] at hphase
    cases hphase

end Draft

/-- What the queries of a plan have in common, custom ones excepted, if they read `table`. -/
structure Plan.ReadsSameRows (p : Plan) (w : Warehouse) (config : ScanConfiguration)
    (table : String) : Prop where
  aggregates : ∀ g ∈ p.groups, g.phase = .aggregate →
    ∃ exprs, List.Forall₂ (config.Measures w p.columns) g.keys exprs ∧
      ∀ sql, g.Renders w sql ↔
        sql = "SELECT\n" ++ Text.join ",\n" (List.zipWith Binding.selects g.bindings exprs) ++
          "\n" ++ ("FROM " ++ table ++ restriction config.rowFilter)
  distributions : ∀ g ∈ p.groups, g.phase = .distribution →
    ∃ column ∈ p.columns, ∃ c, config.conditions w column = .ok c ∧
      (∀ key ∈ g.keys, key.column = some (Text.lower column.name)) ∧
      ∀ sql, g.Renders w sql → (config.profile w column).SelectsRows w table
        (config.rowFilter ++ [c.valid.sql]) sql
  histograms : ∀ g ∈ p.groups, ∀ q, g.query = .histogram q →
    ∀ low high, ∃ sql, q.render w low high = .ok sql
  asked : ∀ g ∈ p.groups, ∀ measured sql range, g.step w measured = .ask sql range →
    g.Renders w sql

/-- All queries of a plan but the custom ones read the same rows: each reads the one source of the
scan, held to the filter and, where it is about the values of a column, to the condition that these
are valid. That holds of histograms between any bounds too. And what is counted as missing or valid
or taken over valid values goes by the conditions of the column. -/
theorem Plan.reads_same_rows {w : Warehouse} {cap : Nat} {config : ScanConfiguration}
    {columns : List TableColumn} {p : Plan} (hplan : config.plan w cap columns = .ok p) :
    ∃ table, config.ReadsFrom w table ∧ p.ReadsSameRows w config table := by
  obtain ⟨-, source, hsource, rfl⟩ := ScanConfiguration.plan_eq_ok_iff.mp hplan
  obtain ⟨table, htable, rfl⟩ := ScanConfiguration.exists_readsFrom hsource
  refine ⟨table, htable, ?_, ?_, fun g hg q hq ↦ Draft.exists_render hg hq,
    fun g _ measured sql range ↦ GroupSpec.renders_of_step⟩
  · intro g hg hphase
    obtain ⟨exprs, hexprs, hquery⟩ :=
      exists_of_mem_aggregateGroups (Draft.mem_aggregateGroups_of_phase hg hphase)
    refine ⟨exprs, hexprs.imp fun key expr h ↦ Draft.measures_of_mem_allAggregates h, fun sql ↦ ?_⟩
    have hfrom : _ = "FROM " ++ table ++ restriction (config.rowFilter ++ []) :=
      QuerySource.fromClause_withFilter table config none
    rw [List.append_nil] at hfrom
    rw [← hfrom]
    constructor
    · rintro (h | ⟨h, -⟩)
      · exact (GroupQuery.sql.inj (hquery.symm.trans h)).symm
      · exact absurd (hquery.symm.trans h) (by simp)
    · rintro rfl
      exact .known hquery
  · intro g hg hphase
    obtain ⟨column, hcolumn, c, hc, hmem⟩ := Draft.exists_column_of_distribution hg hphase
    refine ⟨column, hcolumn, c, hc, fun key hkey ↦ ?_, fun sql h ↦ ?_⟩
    · obtain ⟨m, rfl⟩ := (DistributionContext.cases_of_mem_groups hmem).2.1 key hkey
      rfl
    · exact DistributionContext.selectsRows_of_renders rfl hmem h

/-- Paid orders are sampled. -/
def paidConfiguration : ScanConfiguration :=
  { ordersConfiguration with
    filter := some "status = 'paid'", samplePercentage := some 10.0 }

/-- Aggregates and histograms of a sample of the paid orders read the same sample. -/
theorem paidConfiguration_reads_same_rows :
    ∃ p, paidConfiguration.plan .postgreSQL 2 ordersColumns = .ok p ∧
      paidConfiguration.rowFilter = ["status = 'paid'"] ∧
      ∃ table, paidConfiguration.ReadsFrom .postgreSQL table ∧
        p.ReadsSameRows .postgreSQL paidConfiguration table := by
  obtain ⟨p, hplan⟩ : ∃ p, paidConfiguration.plan .postgreSQL 2 ordersColumns = .ok p :=
    ⟨_, ScanConfiguration.plan_eq_ok_iff.mpr ⟨by decide, _, rfl, rfl⟩⟩
  exact ⟨p, hplan, by decide, Plan.reads_same_rows hplan⟩

end DataQuality
