import Mathlib.Data.List.Flatten
import DataQuality.Proofs.Producers
import DataQuality.Proofs.TestDeclarations

/-!
# Ids of tests

The id of a test is put together from the name of the table, the place where the test is declared
and its index in the list of that place. It can be taken apart again: the last number sign stands in
front of the index, and behind the name of the table the place reads in one way, as long as no
column has the name of a list of custom queries in its own. So no two tests of a plan have the same
id, and losing a test changes the id of no other.
-/

namespace DataQuality

/-! ### Texts with separators -/

/-- Texts that are equal up to the last separator agree on both sides of it. -/
theorem eq_of_append_separator {c : Char} {front front' back back' : List Char} (hback : c ∉ back)
    (hback' : c ∉ back') (h : front ++ c :: back = front' ++ c :: back') :
    front = front' ∧ back = back' := by
  obtain ⟨more, rfl, hmore⟩ | ⟨more, rfl, hmore⟩ := List.append_eq_append_iff.mp h
  · cases more with
    | nil => exact ⟨(List.append_nil front).symm, (List.cons.inj hmore).2⟩
    | cons d more =>
      refine absurd ?_ hback
      rw [(List.cons.inj hmore).2]
      simp
  · cases more with
    | nil => exact ⟨List.append_nil front', (List.cons.inj hmore).2.symm⟩
    | cons d more =>
      refine absurd ?_ hback'
      rw [(List.cons.inj hmore).2]
      simp

/-- What is no digit does not stand in a number. -/
theorem Number.not_mem_natText {c : Char} (hc : Text.isDigit c = false) (n : Nat) :
    c ∉ (natText n).toList := by
  rw [natText, String.toList_ofList]
  intro h
  have hdigit : Text.isDigit c = true := Nat.isDigit_of_mem_toDigits (by decide) (by decide) h
  rw [hc] at hdigit
  cases hdigit

/-- Different numbers are written differently. -/
theorem Number.natText_inj {m n : Nat} (h : natText m = natText n) : m = n := by
  have hdigits : Nat.toDigits 10 m = Nat.toDigits 10 n := String.ofList_inj.mp h
  rw [← Nat.ofDigitChars_ten_toDigits (n := m), hdigits, Nat.ofDigitChars_ten_toDigits]

/-! ### Places -/

/-- Where a test is declared: with the table, with a column or with a custom query of either. A
column goes by the name that it is measured under. -/
inductive TestPlace where
  | table
  | column (key : String)
  | query (key? : Option String) (index : Nat)
  deriving DecidableEq, Repr

namespace TestPlace

/-- The column that a place is about. -/
def column? : TestPlace → Option String
  | .table => none
  | .column key => some key
  | .query key? _ => key?

/-- What the ids of the tests of a place start with. -/
def idStart (table : String) : TestPlace → String
  | .table => table
  | .column key => table ++ "." ++ key
  | .query none index => table ++ "." ++ ("sql_metrics[" ++ Number.natText index ++ "]")
  | .query (some key) index =>
    table ++ "." ++ (key ++ "." ++ ("sql_metrics[" ++ Number.natText index ++ "]"))

/-- The id of the test with an index in the list of a place. -/
def testId (table : String) (place : TestPlace) (index : Nat) : String :=
  place.idStart table ++ "#" ++ Number.natText index

example : testId "orders" (.query (some "email") 0) 1 = "orders.email.sql_metrics[0]#1" := by decide

/-- What the names of lists of custom queries start with. -/
def queryMark : List Char := "sql_metrics[".toList

/-- A place is about one of the columns, if it is about a column at all. -/
def IsOf (columns : List TableColumn) (place : TestPlace) : Prop :=
  ∀ key ∈ place.column?, key ∈ columns.map fun c ↦ Text.lower c.name

end TestPlace

/-- The last number sign of an id stands in front of the index. -/
theorem eq_of_append_index {start start' : String} {index index' : Nat}
    (h : start ++ "#" ++ Number.natText index = start' ++ "#" ++ Number.natText index') :
    start = start' ∧ index = index' := by
  have hsign : "#".toList = ['#'] := by decide
  have hlists := congrArg String.toList h
  simp only [String.toList_append, hsign, List.append_assoc, List.cons_append,
    List.nil_append] at hlists
  obtain ⟨hstart, hindex⟩ := eq_of_append_separator (Number.not_mem_natText (by decide) index)
    (Number.not_mem_natText (by decide) index') hlists
  exact ⟨String.toList_inj.mp hstart, Number.natText_inj (String.toList_inj.mp hindex)⟩

namespace TestPlace

variable {place place' : TestPlace} {table : String}

/-- How a place reads behind the name of the table. -/
def suffix : TestPlace → List Char
  | .table => []
  | .column key => '.' :: key.toList
  | .query key? index =>
    '.' :: ((key?.elim [] fun key ↦ key.toList ++ ['.']) ++ queryMark ++
      (Number.natText index).toList ++ [']'])

theorem toList_idStart (table : String) (place : TestPlace) :
    (place.idStart table).toList = table.toList ++ place.suffix := by
  have hdot : ".".toList = ['.'] := by decide
  have hclosing : "]".toList = [']'] := by decide
  have hmark : "sql_metrics[".toList = queryMark := rfl
  rcases place with _ | key | ⟨_ | key, index⟩ <;>
    simp only [idStart, suffix, String.toList_append, hdot, hclosing, hmark, List.append_nil,
      List.append_assoc, List.cons_append, List.nil_append, Option.elim]

/-- A custom query is not taken for a column whose name is free of their lists. -/
theorem suffix_column_ne {key : String} (hkey : ¬ queryMark <:+: key.toList) (key? : Option String)
    (index : Nat) : (column key).suffix ≠ (query key? index).suffix := by
  intro h
  have hname : key.toList = (key?.elim [] fun key ↦ key.toList ++ ['.']) ++ queryMark ++
      (Number.natText index).toList ++ [']'] := (List.cons.inj h).2
  rw [List.append_assoc _ _ [']']] at hname
  exact hkey ⟨_, _, hname.symm⟩

/-- The last bracket that opens stands in front of the index of a custom query. -/
theorem query_eq_of_suffix_eq {key? key?' : Option String} {index index' : Nat}
    (h : (query key? index).suffix = (query key?' index').suffix) :
    query key? index = query key?' index' := by
  have hmark : queryMark = "sql_metrics".toList ++ ['['] := by decide
  have hbehind : ∀ index, '[' ∉ (Number.natText index).toList ++ [']'] := by
    intro index hmem
    rcases List.mem_append.mp hmem with hmem | hmem
    · exact Number.not_mem_natText (by decide) index hmem
    · exact absurd hmem (by decide)
  have hlists := (List.cons.inj h).2
  rw [hmark] at hlists
  simp only [List.append_assoc, List.cons_append, List.nil_append] at hlists
  rw [← List.append_assoc, ← List.append_assoc] at hlists
  obtain ⟨hfront, hback⟩ := eq_of_append_separator (hbehind index) (hbehind index') hlists
  have hindex := Number.natText_inj (String.toList_inj.mp (List.append_cancel_right hback))
  have hkey : key? = key?' := by
    have hprefix := List.append_cancel_right hfront
    cases key? with
    | none =>
      cases key?' with
      | none => rfl
      | some key' => simp at hprefix
    | some key =>
      cases key?' with
      | none => simp at hprefix
      | some key' =>
        exact congrArg some (String.toList_inj.mp (List.append_cancel_right hprefix))
  rw [hkey, hindex]

/-- Places that read alike are the same, unless the name of a column holds that of a list of custom
queries. -/
theorem eq_of_idStart_eq (h : place.idStart table = place'.idStart table)
    (hplain : ∀ key ∈ place.column?, ¬ queryMark <:+: key.toList)
    (hplain' : ∀ key ∈ place'.column?, ¬ queryMark <:+: key.toList) : place = place' := by
  have hsuffix : place.suffix = place'.suffix := by
    have hlists := congrArg String.toList h
    rw [toList_idStart, toList_idStart] at hlists
    exact List.append_cancel_left hlists
  cases place with
  | table => cases place' <;> first | rfl | cases hsuffix
  | column key =>
    cases place' with
    | table => cases hsuffix
    | column key' => rw [String.toList_inj.mp (List.cons.inj hsuffix).2]
    | query key?' index' => exact absurd hsuffix (suffix_column_ne (hplain key rfl) key?' index')
  | query key? index =>
    cases place' with
    | table => cases hsuffix
    | column key' => exact absurd hsuffix.symm (suffix_column_ne (hplain' key' rfl) key? index)
    | query key?' index' => exact query_eq_of_suffix_eq hsuffix

end TestPlace

/-! ### Compiled tests -/

namespace TestScope

variable {scope : TestScope} {available : List MetricKey} {start : Nat}

/-- The ids of compiled tests are those of their places in the list, which may have gaps. -/
theorem ids_compileFrom_sublist (scope : TestScope) (available : List MetricKey) (start : Nat)
    (sources : List String) :
    ((successes (scope.compileFrom available start sources)).map CompiledTest.id).Sublist
      ((List.range' start sources.length).map fun index ↦
        scope.idStart ++ "#" ++ Number.natText index) := by
  induction sources generalizing start with
  | nil => exact .refl _
  | cons source rest ih =>
    rw [List.length_cons, List.range'_succ, List.map_cons, compileFrom]
    cases hone : scope.compileOne available start source with
    | ok t =>
      have hid : t.id = scope.idStart ++ "#" ++ Number.natText start :=
        (standsFor_of_compileOne hone).id
      rw [← hid]
      exact (ih (start + 1)).cons_cons t.id
    | error e => exact (ih (start + 1)).cons _

end TestScope

/-- If no two blocks of tests have ids that start alike, no two of their tests have the same id. -/
theorem DeclaredTests.nodup_ids_compile {tests : List DeclaredTests}
    (h : (tests.map fun b ↦ b.scope.idStart).Nodup) (available : List MetricKey) :
    ((successes (tests.flatMap fun b ↦ b.compile available)).map CompiledTest.id).Nodup := by
  have hsublist : ((successes (tests.flatMap fun b ↦ b.compile available)).map
      CompiledTest.id).Sublist (tests.flatMap fun b ↦ (List.range' 0 b.sources.length).map
        fun index ↦ b.scope.idStart ++ "#" ++ Number.natText index) := by
    rw [successes, List.filterMap_flatMap, List.map_flatMap]
    exact .flatMap_right _ fun b _ ↦ b.scope.ids_compileFrom_sublist available 0 b.sources
  refine List.Nodup.sublist hsublist (List.nodup_flatMap.mpr ⟨fun b _ ↦ ?_, ?_⟩)
  · exact (List.nodup_range' 1).map fun _ _ heq ↦ (eq_of_append_index heq).2
  · refine (List.pairwise_map.mp h).imp fun {b b'} hne ↦ ?_
    intro id hid hid'
    obtain ⟨index, -, rfl⟩ := List.mem_map.mp hid
    obtain ⟨index', -, heq⟩ := List.mem_map.mp hid'
    exact hne (eq_of_append_index heq).1.symm

/-! ### Declared tests -/

namespace ScanConfiguration

/-- The custom queries of the table or of a column. -/
def queriesAt (config : ScanConfiguration) : Option String → List SqlMetric
  | none => config.sqlMetrics
  | some key => ((config.columns.get? key).map ColumnSettings.sqlMetrics).getD []

/-- The tests that a configuration lists at a place; a test that a custom query implies comes
first. -/
def testsAt (config : ScanConfiguration) : TestPlace → List String
  | .table => config.tests
  | .column key => ((config.columns.get? key).map ColumnSettings.tests).getD []
  | .query key? index =>
    ((config.queriesAt key?)[index]?.map fun m ↦ DeclaredMetric.allTests ⟨key?, index, m⟩).getD []

end ScanConfiguration

/-- The place of the tests of a custom query. -/
def DeclaredMetric.place (m : DeclaredMetric) : TestPlace := .query m.column m.index

theorem DeclaredMetric.idStart_place (m : DeclaredMetric) (table : String) :
    table ++ "." ++ m.label = m.place.idStart table := by
  obtain ⟨_ | key, index, metric⟩ := m
  · rfl
  · simp only [label, place, TestPlace.idStart, String.append_assoc]

namespace Draft

variable {d : Draft}

/-- The places where tests may be declared. -/
def places (d : Draft) : List TestPlace :=
  .table :: d.columns.map (fun c ↦ .column (Text.lower c.name)) ++
    d.declared.map DeclaredMetric.place

theorem isOf_of_mem_declared {m : DeclaredMetric} (h : m ∈ d.declared) :
    m.place.IsOf d.columns ∧ (d.config.queriesAt m.column)[m.index]? = some m.metric := by
  obtain ⟨key?, hkey, hm⟩ : ∃ key?, (∀ key ∈ key?, key ∈ d.columns.map fun c ↦ Text.lower c.name) ∧
      m ∈ declareMetrics key? 0 (d.config.queriesAt key?) := by
    rw [d.declared_eq] at h
    rcases List.mem_append.mp h with h | h
    · exact ⟨none, nofun, h⟩
    · obtain ⟨c, hc, h⟩ := List.mem_flatMap.mp h
      refine ⟨some (Text.lower c.name), fun key hkey ↦ ?_, h⟩
      exact Option.mem_some_iff.mp hkey ▸ List.mem_map_of_mem hc
  obtain ⟨hcolumn, i, hindex, hmetric⟩ := mem_declareMetrics hm
  rw [Nat.zero_add] at hindex
  rw [TestPlace.IsOf, DeclaredMetric.place, TestPlace.column?, hcolumn, hindex]
  exact ⟨hkey, hmetric⟩

theorem isOf_of_mem_places {place : TestPlace} (h : place ∈ d.places) :
    place.IsOf d.columns := by
  rcases List.mem_append.mp h with h | h
  · rcases List.mem_cons.mp h with rfl | h
    · nofun
    · obtain ⟨c, hc, rfl⟩ := List.mem_map.mp h
      intro key hkey
      exact Option.mem_some_iff.mp hkey ▸ List.mem_map_of_mem hc
  · obtain ⟨m, hm, rfl⟩ := List.mem_map.mp h
    exact (isOf_of_mem_declared hm).1

/-- No place is listed twice, if the columns have different names. -/
theorem nodup_places (h : d.Distinct) : d.places.Nodup := by
  have hcolumns : (d.columns.map fun c ↦ TestPlace.column (Text.lower c.name)).Nodup := by
    have hmap := List.Nodup.map (f := TestPlace.column) (fun _ _ ↦ TestPlace.column.inj) h
    rwa [List.map_map] at hmap
  have hlist : ∀ key? ms, ((declareMetrics key? 0 ms).map DeclaredMetric.place).Nodup := by
    intro key? ms
    exact List.pairwise_map.mpr ((pairwise_declareMetrics key? 0 ms).imp fun hne heq ↦
      hne (TestPlace.query.inj heq).2)
  have hqueries : (d.declared.map DeclaredMetric.place).Nodup := by
    rw [d.declared_eq, ScanConfiguration.customQueries, List.map_append, List.map_flatMap]
    refine List.nodup_append.mpr ⟨hlist _ _, List.nodup_flatMap.mpr ⟨fun c _ ↦ hlist _ _, ?_⟩, ?_⟩
    · refine (List.pairwise_map.mp h).imp fun {c c'} hne place hplace hplace' ↦ ?_
      obtain ⟨m, hm, rfl⟩ := List.mem_map.mp hplace
      obtain ⟨m', hm', heq⟩ := List.mem_map.mp hplace'
      have hkey := (TestPlace.query.inj heq).1
      rw [(mem_declareMetrics hm).1, (mem_declareMetrics hm').1] at hkey
      exact hne (Option.some.inj hkey).symm
    · intro place hplace place' hplace' heq
      obtain ⟨m, hm, rfl⟩ := List.mem_map.mp hplace
      obtain ⟨c, -, hplace'⟩ := List.mem_flatMap.mp hplace'
      obtain ⟨m', hm', rfl⟩ := List.mem_map.mp hplace'
      have hkey := (TestPlace.query.inj heq).1
      rw [(mem_declareMetrics hm).1, (mem_declareMetrics hm').1] at hkey
      cases hkey
  refine List.nodup_append.mpr ⟨List.nodup_cons.mpr ⟨by simp, hcolumns⟩, hqueries, ?_⟩
  intro place hplace place' hplace' heq
  obtain ⟨m, -, rfl⟩ := List.mem_map.mp hplace'
  subst heq
  simp [DeclaredMetric.place] at hplace

/-- The blocks of tests of custom queries belong to their places, in their order. -/
theorem idStarts_planCustom_sublist (table : String) (known : List MetricKey)
    (ms : List DeclaredMetric) :
    (((planCustom table known ms).flatMap fun c ↦ c.tests.toList).map fun b ↦
        b.scope.idStart).Sublist
      ((ms.map DeclaredMetric.place).map (TestPlace.idStart table)) := by
  induction ms generalizing known with
  | nil => exact .refl _
  | cons m rest ih =>
    rw [planCustom, List.flatMap_cons, List.map_append, List.map_cons, List.map_cons,
      ← List.singleton_append]
    refine List.Sublist.append ?_ (ih _)
    rcases m.plan_cases table known with ⟨-, hnone, -⟩ | ⟨f, bindings, -, -, -, -, htests⟩
    · rw [hnone]
      exact List.nil_sublist _
    · rw [htests, ← m.idStart_place]
      exact .refl _

/-- The blocks of tests that are compiled belong to places, in their order. -/
theorem idStarts_sublist :
    (d.tests.map fun b ↦ b.scope.idStart).Sublist
      (d.places.map (TestPlace.idStart d.config.tableName)) := by
  have hcolumns : ((d.planned.flatMap PlannedColumn.tests).map fun b ↦ b.scope.idStart).Sublist
      ((d.columns.map fun c ↦ TestPlace.column (Text.lower c.name)).map
        (TestPlace.idStart d.config.tableName)) := by
    rw [planned, List.flatMap_map, List.map_flatMap, List.map_map, List.map_eq_flatMap]
    refine .flatMap_right _ fun c _ ↦ ?_
    change ((columnTests d.config _ (d.config.column? c.name)).map
      fun b ↦ b.scope.idStart).Sublist _
    unfold columnTests
    split
    · split
      · exact List.nil_sublist _
      · exact .refl _
    · exact List.nil_sublist _
  rw [tests, places, List.map_append, List.map_append, List.map_cons, List.map_cons]
  exact (hcolumns.cons_cons _).append (idStarts_planCustom_sublist _ _ _)

/-- A block of tests that is compiled is listed in full at a place. -/
theorem exists_place_of_mem_tests {b : DeclaredTests} (h : b ∈ d.tests) :
    ∃ place, place.IsOf d.columns ∧ b.scope.idStart = place.idStart d.config.tableName ∧
      b.scope.column = place.column? ∧ b.sources = d.config.testsAt place := by
  rcases mem_tests_cases h with rfl | ⟨c, hc, settings, hsettings, rfl⟩ |
    ⟨m, hm, others, -, hplanned⟩
  · exact ⟨.table, nofun, rfl, rfl, rfl⟩
  · refine ⟨.column (Text.lower c.name), fun key hkey ↦ ?_, rfl, rfl, ?_⟩
    · exact Option.mem_some_iff.mp hkey ▸ List.mem_map_of_mem hc
    · rw [ScanConfiguration.column?] at hsettings
      rw [ScanConfiguration.testsAt, hsettings]
      rfl
  · obtain ⟨f, bindings, hf, -, -, -, rfl⟩ := m.exists_form_of_plan hplanned
    obtain ⟨hplace, hmetric⟩ := isOf_of_mem_declared hm
    refine ⟨m.place, hplace, m.idStart_place _, rfl, ?_⟩
    rw [DeclaredMetric.place, ScanConfiguration.testsAt, hmetric]
    exact (DeclaredMetric.tests_of_form? hf).1

end Draft

/-- Test ids identify tests: if the lowercase names of the columns are different and free of the
lists of custom queries, no two tests of a plan have the same id, and an id tells the place of the
test and its index in the list of that place, whichever other tests are missing. -/
theorem ScanConfiguration.testIds_identify {w : Warehouse} {cap : Nat} {config : ScanConfiguration}
    {columns : List TableColumn} {p : Plan} (hplan : config.plan w cap columns = .ok p)
    (hdistinct : (columns.map fun c ↦ Text.lower c.name).Nodup)
    (hplain : ∀ c ∈ columns, ¬ TestPlace.queryMark <:+: (Text.lower c.name).toList) :
    (p.tests.map CompiledTest.id).Nodup ∧
      ∀ t ∈ p.tests, ∃ place index source, place.IsOf columns ∧
        (config.testsAt place)[index]? = some source ∧
        TestExpression.parse source = .ok t.expression ∧ t.column = place.column? ∧
        t.id = place.testId config.tableName index ∧
        ∀ place' index', place'.IsOf columns → t.id = place'.testId config.tableName index' →
          place' = place ∧ index' = index := by
  obtain ⟨-, source, -, rfl⟩ := plan_eq_ok_iff.mp hplan
  let d : Draft := ⟨w, cap, config, columns, source⟩
  have hfree : ∀ {place : TestPlace}, place.IsOf columns →
      ∀ key ∈ place.column?, ¬ TestPlace.queryMark <:+: key.toList := by
    intro place hplace key hkey
    obtain ⟨c, hc, rfl⟩ := List.mem_map.mp (hplace key hkey)
    exact hplain c hc
  constructor
  · have hstarts : (d.places.map (TestPlace.idStart config.tableName)).Nodup :=
      (d.nodup_places hdistinct).map_on fun place hplace place' hplace' heq ↦
        TestPlace.eq_of_idStart_eq heq (hfree (d.isOf_of_mem_places hplace))
          (hfree (d.isOf_of_mem_places hplace'))
    exact DeclaredTests.nodup_ids_compile (hstarts.sublist d.idStarts_sublist) _
  · intro t ht
    obtain ⟨b, hb, index, source, hsource, hone⟩ := Draft.exists_source_of_mem_tests (d := d) ht
    obtain ⟨place, hplace, hstart, hcolumn, hsources⟩ := Draft.exists_place_of_mem_tests hb
    have hstands := TestScope.standsFor_of_compileOne hone
    have hid : t.id = place.testId config.tableName index := by
      rw [hstands.id, TestDeclaration.id, hstart]
      rfl
    refine ⟨place, index, source, hplace, hsources ▸ hsource, hstands.expression,
      hstands.column.trans hcolumn, hid, fun place' index' hplace' hid' ↦ ?_⟩
    obtain ⟨hstart', hindex⟩ := eq_of_append_index (hid'.symm.trans hid)
    exact ⟨TestPlace.eq_of_idStart_eq hstart' (hfree hplace') (hfree hplace), hindex⟩

/-- A table of orders with tests of the table, of a column and of custom queries, some of which do
not compile. -/
def reviewedOrders : ScanConfiguration :=
  { ScanConfiguration.ofTable "orders" with
    metrics := ["row_count"]
    tests := ["row_count >", "row_count > 0"]
    sqlMetrics := [.failedRows "unpaid" "SELECT id FROM orders WHERE paid IS NULL"]
    columns := Dict.empty.insert "email"
      { ColumnSettings.empty with
        tests := ["missing_count == 0"]
        sqlMetrics := [{ SqlMetric.failedRows "bounced" "SELECT id FROM bounces" with
          tests := ["bounced < 10"] }] } }

/-- The tests of the table of orders are identified by their ids. -/
theorem reviewedOrders_testIds :
    ∃ p, reviewedOrders.plan .postgreSQL 0 ordersColumns = .ok p ∧
      (ordersColumns.map fun c ↦ Text.lower c.name).Nodup ∧
      (∀ c ∈ ordersColumns, ¬ TestPlace.queryMark <:+: (Text.lower c.name).toList) ∧
      (p.tests.map CompiledTest.id).Nodup ∧
      ∀ t ∈ p.tests, ∃ place index source, place.IsOf ordersColumns ∧
        (reviewedOrders.testsAt place)[index]? = some source ∧
        TestExpression.parse source = .ok t.expression ∧ t.column = place.column? ∧
        t.id = place.testId "orders" index ∧
        ∀ place' index', place'.IsOf ordersColumns → t.id = place'.testId "orders" index' →
          place' = place ∧ index' = index := by
  obtain ⟨p, hplan⟩ : ∃ p, reviewedOrders.plan .postgreSQL 0 ordersColumns = .ok p :=
    ScanConfiguration.exists_plan (by decide) rfl
  have hdistinct : (ordersColumns.map fun c ↦ Text.lower c.name).Nodup := by decide
  have hplain : ∀ c ∈ ordersColumns,
      ¬ TestPlace.queryMark <:+: (Text.lower c.name).toList := by decide +kernel
  exact ⟨p, hplan, hdistinct, hplain,
    ScanConfiguration.testIds_identify hplan hdistinct hplain⟩

end DataQuality
