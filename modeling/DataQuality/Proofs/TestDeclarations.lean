import DataQuality.Proofs.CaseFolding
import DataQuality.Proofs.Clashes
import DataQuality.Proofs.CompiledTests

/-!
# Declared tests

Every test that a configuration declares, and what becomes of it in a plan. A test may be lost where
its column is looked up, where its custom query is refused, where it cannot be read and where it
names what is not measured; each of these leaves an issue behind. So a plan without issues has all
of them.
-/

namespace DataQuality

/-- A test as it is declared: where, in which place of its list, and whether it is judged row by
row. -/
structure TestDeclaration where
  place : String
  column : Option String
  index : Nat
  source : String
  grouped : Bool

namespace TestDeclaration

/-- The name of the test in reports. -/
def id (d : TestDeclaration) : String := d.place ++ "#" ++ Number.natText d.index

/-- The tests of a list, the first of them with the given index. -/
def ofSources (place : String) (column : Option String) (grouped : Bool) (index : Nat) :
    List String → List TestDeclaration
  | [] => []
  | source :: rest =>
    ⟨place, column, index, source, grouped⟩ :: ofSources place column grouped (index + 1) rest

end TestDeclaration

/-- Whether the tests of a query are judged row by row. -/
def DeclaredMetric.isJudgedByRow (d : DeclaredMetric) : Bool :=
  d.metric.kind = .numeric && d.metric.isGrouped

/-- The tests of a query. Rows that should not be there are tested to be none. -/
def DeclaredMetric.allTests (d : DeclaredMetric) : List String :=
  match d.metric.kind, d.metric.name with
  | .failedRows, some name => (name ++ " == 0") :: d.metric.tests
  | _, _ => d.metric.tests

/-- The tests of a query as they are declared. -/
def DeclaredMetric.testDeclarations (d : DeclaredMetric) (table : String) : List TestDeclaration :=
  TestDeclaration.ofSources (table ++ "." ++ d.label) d.column d.isJudgedByRow 0 d.allTests

namespace ScanConfiguration

/-- Every custom query of a configuration, whatever columns are found. -/
def allQueries (config : ScanConfiguration) : List DeclaredMetric :=
  declareMetrics none 0 config.sqlMetrics ++ config.columns.entries.flatMap fun entry ↦
    declareMetrics (some entry.1) 0 entry.2.sqlMetrics

/-- Every test that a configuration declares: those of the table, of its columns and of custom
queries. -/
def testDeclarations (config : ScanConfiguration) : List TestDeclaration :=
  TestDeclaration.ofSources config.tableName none false 0 config.tests ++
    (config.columns.entries.flatMap fun entry ↦
      TestDeclaration.ofSources (config.tableName ++ "." ++ entry.1) (some entry.1) false 0
        entry.2.tests) ++
    config.allQueries.flatMap fun d ↦ d.testDeclarations config.tableName

end ScanConfiguration

/-! ### Compiling -/

/-- A compiled test stands for a declared one. -/
structure CompiledTest.StandsFor (t : CompiledTest) (d : TestDeclaration) : Prop where
  id : t.id = d.id
  column : t.column = d.column
  expression : TestExpression.parse d.source = .ok t.expression
  grouped : t.grouped.isSome = d.grouped

/-- A test that compiles stands for its declaration. -/
theorem TestScope.standsFor_of_compileOne {scope : TestScope} {available : List MetricKey}
    {index : Nat} {source : String} {t : CompiledTest}
    (h : scope.compileOne available index source = .ok t) :
    t.StandsFor ⟨scope.idStart, scope.column, index, source, scope.grouped.isSome⟩ := by
  obtain ⟨expression, hparse, -, rfl⟩ := compileOne_eq_ok_iff.mp h
  exact ⟨rfl, rfl, hparse, rfl⟩

/-- Tests that all compile stand for all their declarations. -/
theorem TestScope.exists_standsFor {scope : TestScope} {available : List MetricKey} {index : Nat}
    {sources : List String} (h : failures (scope.compileFrom available index sources) = [])
    {d : TestDeclaration}
    (hd : d ∈ TestDeclaration.ofSources scope.idStart scope.column scope.grouped.isSome index
      sources) :
    ∃ t ∈ successes (scope.compileFrom available index sources), t.StandsFor d := by
  induction sources generalizing index with
  | nil => cases hd
  | cons source rest ih =>
    unfold compileFrom at h ⊢
    cases hone : scope.compileOne available index source with
    | error e =>
      rw [hone] at h
      cases h
    | ok t =>
      rw [hone] at h
      rcases List.mem_cons.mp hd with rfl | hd
      · exact ⟨t, List.mem_cons_self, standsFor_of_compileOne hone⟩
      · obtain ⟨t', ht', hstands⟩ := ih h hd
        exact ⟨t', List.mem_cons_of_mem _ ht', hstands⟩

/-- The declarations of tests with a scope. -/
def DeclaredTests.declarations (b : DeclaredTests) : List TestDeclaration :=
  TestDeclaration.ofSources b.scope.idStart b.scope.column b.scope.grouped.isSome 0 b.sources

/-- What a query comes to keeps its tests and the way they are judged. -/
theorem DeclaredMetric.tests_of_form? {d : DeclaredMetric} {f : CustomForm}
    (h : d.form? = some f) : f.tests = d.allTests ∧ f.grouped.isSome = d.isJudgedByRow := by
  rcases form?_cases h with ⟨name, hkind, hname, rfl⟩ |
    ⟨name, fields, hkind, -, hgrouped, rfl⟩ | ⟨hkind, hgrouped, rfl⟩
  · simp [allTests, isJudgedByRow, hkind, hname]
  · simp [allTests, isJudgedByRow, hkind, hgrouped]
  · simp [allTests, isJudgedByRow, hkind, hgrouped]

/-- A column has a block of tests if its settings list any. -/
theorem mem_columnTests_iff {config : ScanConfiguration} {p : ColumnProfile}
    {o : Option ColumnSettings} {b : DeclaredTests} :
    b ∈ columnTests config p o ↔ ∃ settings, o = some settings ∧ settings.tests ≠ [] ∧
      b = ⟨.ofColumn config.tableName p.key, settings.tests⟩ := by
  cases o with
  | none => simp [columnTests]
  | some settings => cases htests : settings.tests <;> simp [columnTests, htests]

namespace Draft

variable {d : Draft}

/-- Tests are declared with the table, with one of its columns or with a custom query. -/
theorem mem_tests_cases {b : DeclaredTests} (h : b ∈ d.tests) :
    b = ⟨.ofTable d.config.tableName, d.config.tests⟩ ∨
      (∃ c ∈ d.columns, ∃ settings, d.config.column? c.name = some settings ∧
        b = ⟨.ofColumn d.config.tableName (Text.lower c.name), settings.tests⟩) ∨
      ∃ m ∈ d.declared, ∃ others, m.plan d.config.tableName others ∈ d.customs ∧
        (m.plan d.config.tableName others).tests = some b := by
  rcases List.mem_append.mp h with h | h
  · rcases List.mem_cons.mp h with rfl | h
    · exact .inl rfl
    · obtain ⟨planned, hplanned, h⟩ := List.mem_flatMap.mp h
      obtain ⟨c, hc, rfl⟩ := List.mem_map.mp hplanned
      obtain ⟨settings, hsettings, -, rfl⟩ := mem_columnTests_iff.mp h
      exact .inr (.inl ⟨c, hc, settings, hsettings, rfl⟩)
  · obtain ⟨custom, hcustom, h⟩ := List.mem_flatMap.mp h
    obtain ⟨m, hm, others, rfl⟩ := exists_of_mem_planCustom hcustom
    exact .inr (.inr ⟨m, hm, others, hcustom, Option.mem_toList.mp h⟩)

/-- A test of a plan is compiled from a source of a block, in the scope of the block and with the
index of the source. -/
theorem exists_source_of_mem_tests {t : CompiledTest} (h : t ∈ d.plan.tests) :
    ∃ b ∈ d.tests, ∃ index source, b.sources[index]? = some source ∧
      b.scope.compileOne (d.requests.map MetricRequest.key) index source = .ok t := by
  rw [plan_tests, mem_successes_iff] at h
  obtain ⟨b, hb, h⟩ := List.mem_flatMap.mp h
  obtain ⟨index, source, hsource, hone⟩ := TestScope.exists_of_mem_compileFrom h
  rw [Nat.zero_add] at hone
  exact ⟨b, hb, index, source, hsource, hone⟩

/-- Without issues every block of declared tests is compiled in full. -/
theorem exists_standsFor (h : failures d.compiled = []) {b : DeclaredTests} (hb : b ∈ d.tests)
    {e : TestDeclaration} (he : e ∈ b.declarations) : ∃ t ∈ d.plan.tests, t.StandsFor e := by
  rw [plan_tests]
  unfold compiled at h ⊢
  generalize d.tests = blocks at h hb
  induction blocks with
  | nil => cases hb
  | cons first rest ih =>
    rw [List.flatMap_cons, failures_append, List.append_eq_nil_iff] at h
    rw [List.flatMap_cons, successes_append]
    rcases List.mem_cons.mp hb with rfl | hb
    · obtain ⟨t, ht, hstands⟩ := TestScope.exists_standsFor h.1 he
      exact ⟨t, List.mem_append_left _ ht, hstands⟩
    · obtain ⟨t, ht, hstands⟩ := ih h.2 hb
      exact ⟨t, List.mem_append_right _ ht, hstands⟩

/-- A column that has settings under a lowercase name is found among the columns, and its settings
are found under its name. -/
theorem exists_column (hunknown : d.config.unknownColumn? d.columns = none) {key : String}
    {settings : ColumnSettings} (hentry : (key, settings) ∈ d.config.columns.entries)
    (hkey : Text.lower key = key) :
    ∃ c ∈ d.columns, Text.lower c.name = key ∧ d.config.column? c.name = some settings := by
  have hmem : key ∈ d.config.columns.keys := List.mem_map_of_mem hentry
  have hfound := List.find?_eq_none.mp hunknown key hmem
  simp only [Bool.not_eq_true, Bool.not_eq_false', List.any_eq_true] at hfound
  obtain ⟨c, hc, hsame⟩ := hfound
  have hlower : Text.lower c.name = key := (Text.lower_eq_of_eqFoldingAscii hsame).trans hkey
  refine ⟨c, hc, hlower, ?_⟩
  rw [ScanConfiguration.column?, hlower]
  exact Dict.mem_entries_iff.mp hentry

/-- The tests in the settings of a column are a block that is compiled. -/
theorem mem_tests_of_settings (hunknown : d.config.unknownColumn? d.columns = none)
    {key : String} {settings : ColumnSettings} (hentry : (key, settings) ∈ d.config.columns.entries)
    (hkey : Text.lower key = key) (htests : settings.tests ≠ []) :
    ⟨.ofColumn d.config.tableName key, settings.tests⟩ ∈ d.tests := by
  obtain ⟨c, hc, hlower, hsettings⟩ := exists_column hunknown hentry hkey
  apply List.mem_cons_of_mem
  apply List.mem_append_left
  rw [List.mem_flatMap]
  refine ⟨_, List.mem_map_of_mem hc, ?_⟩
  show _ ∈ columnTests d.config (.ofColumn d.warehouse c _) (d.config.column? c.name)
  refine mem_columnTests_iff.mpr ⟨settings, hsettings, htests, ?_⟩
  rw [show (ColumnProfile.ofColumn d.warehouse c _).key = key from hlower]

/-- Every custom query of the configuration is planned. -/
theorem mem_declared_of_mem_allQueries (hunknown : d.config.unknownColumn? d.columns = none)
    (hkeys : ∀ key ∈ d.config.columns.keys, Text.lower key = key) {m : DeclaredMetric}
    (hm : m ∈ d.config.allQueries) : m ∈ d.declared := by
  rw [d.declared_eq]
  rcases List.mem_append.mp hm with hm | hm
  · exact List.mem_append_left _ hm
  · obtain ⟨⟨key, settings⟩, hentry, hm⟩ := List.mem_flatMap.mp hm
    obtain ⟨c, hc, hlower, hsettings⟩ :=
      exists_column hunknown hentry (hkeys key (List.mem_map_of_mem hentry))
    apply List.mem_append_right
    rw [List.mem_flatMap]
    refine ⟨c, hc, ?_⟩
    rw [hlower, hsettings]
    exact hm

/-- The tests of a planned custom query are a block that is compiled, unless it leaves an issue. -/
theorem exists_block_of_declared (hissues : ∀ c ∈ d.customs, c.issues = []) {m : DeclaredMetric}
    (hm : m ∈ d.declared) :
    ∃ b ∈ d.tests, b.declarations = m.testDeclarations d.config.tableName := by
  obtain ⟨others, hplanned⟩ := exists_mem_planCustom hm
  rcases m.plan_cases d.config.tableName others with ⟨_, _, hissue⟩ |
    ⟨f, bindings, hf, _, _, _, htests⟩
  · exact absurd (hissues _ hplanned) hissue
  · obtain ⟨hall, hgrouped⟩ := DeclaredMetric.tests_of_form? hf
    refine ⟨⟨m.scope d.config.tableName bindings f.grouped, f.tests⟩, ?_, ?_⟩
    · apply List.mem_append_right
      rw [List.mem_flatMap]
      refine ⟨_, hplanned, ?_⟩
      rw [htests]
      exact List.mem_singleton_self _
    · unfold DeclaredTests.declarations DeclaredMetric.scope DeclaredMetric.testDeclarations
      rw [hall, hgrouped]

/-- Every test that the configuration declares is in a block that is compiled, unless a custom query
leaves an issue. -/
theorem exists_block (hunknown : d.config.unknownColumn? d.columns = none)
    (hkeys : ∀ key ∈ d.config.columns.keys, Text.lower key = key)
    (hissues : ∀ c ∈ d.customs, c.issues = []) {e : TestDeclaration}
    (he : e ∈ d.config.testDeclarations) : ∃ b ∈ d.tests, e ∈ b.declarations := by
  rcases List.mem_append.mp he with he | he
  · rcases List.mem_append.mp he with he | he
    · exact ⟨⟨.ofTable d.config.tableName, d.config.tests⟩, List.mem_cons_self, he⟩
    · obtain ⟨⟨key, settings⟩, hentry, he⟩ := List.mem_flatMap.mp he
      have htests : settings.tests ≠ [] := by
        intro hnone
        simp [hnone, TestDeclaration.ofSources] at he
      have hkey := hkeys key (List.mem_map_of_mem hentry)
      exact ⟨_, mem_tests_of_settings hunknown hentry hkey htests, he⟩
  · obtain ⟨m, hm, he⟩ := List.mem_flatMap.mp he
    obtain ⟨b, hb, hdeclarations⟩ :=
      exists_block_of_declared hissues (mem_declared_of_mem_allQueries hunknown hkeys hm)
    rw [← hdeclarations] at he
    exact ⟨b, hb, he⟩

/-- A plan without issues has every test that the configuration declares. -/
theorem exists_test_of_issues (hunknown : d.config.unknownColumn? d.columns = none)
    (hkeys : ∀ key ∈ d.config.columns.keys, Text.lower key = key)
    (hissues : d.plan.issues = []) {e : TestDeclaration} (he : e ∈ d.config.testDeclarations) :
    ∃ t ∈ d.plan.tests, t.StandsFor e := by
  rw [plan_issues, List.append_eq_nil_iff] at hissues
  obtain ⟨hmerged, hfailures⟩ := hissues
  have hall := eq_nil_of_mergeIssues hmerged
  rw [List.append_eq_nil_iff, List.flatMap_eq_nil_iff] at hall
  obtain ⟨b, hb, he⟩ := exists_block hunknown hkeys hall.2 he
  exact exists_standsFor hfailures hb he

end Draft

end DataQuality
