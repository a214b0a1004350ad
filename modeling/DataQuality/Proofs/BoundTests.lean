import DataQuality.Proofs.Leaves
import DataQuality.Proofs.Producers
import DataQuality.Proofs.TestDeclarations
import DataQuality.Proofs.TestErrors

/-!
# Bound tests

The names of a compiled test are bound to what its plan requests, everything requested is obtained
by a group or derived, and every scan of the plan records it, if only with a reason for having no
value. So no test ever meets a name that is not bound or a key that is not there.
-/

namespace DataQuality

/-! ### Names of expressions -/

/-- What an expression refers to are leaves of it. -/
theorem Expr.identifier_mem_leaves {e : Expr} {name : String} (h : name ∈ e.references) :
    .identifier name ∈ e.leaves := by
  induction e with
  | number value => cases h
  | text value => cases h
  | bool value => cases h
  | null => cases h
  | identifier other =>
    obtain rfl := List.mem_singleton.mp h
    exact List.mem_singleton_self _
  | unary op operand ih => exact ih h
  | binary op left right ihl ihr =>
    exact List.mem_append.mpr ((List.mem_append.mp h).imp ihl ihr)

/-- No name in a test holds a quote. -/
theorem TestExpression.quote_not_mem {source : String} {x : TestExpression}
    (h : TestExpression.parse source = .ok x) {name : String} (hname : name ∈ x.tree.references) :
    '\'' ∉ name.toList := by
  obtain ⟨tree, htree, rfl⟩ := exists_of_map_eq_ok h
  have hleaf := Expr.fromText_of_parse htree _ (Expr.identifier_mem_leaves hname)
  exact (hleaf.identifier name rfl).2.quote_not_mem

/-! ### Compiled tests -/

namespace TestScope

variable {scope : TestScope} {available : List MetricKey} {t : CompiledTest}

/-- A name stands for an output of the scope or for something available. -/
theorem mem_of_resolve? {name : String} {key : MetricKey}
    (h : scope.resolve? available name = some key) : key ∈ scope.outputs ∨ key ∈ available := by
  unfold resolve? at h
  split at h
  · next found hfound =>
    obtain rfl := Option.some.inj h
    exact .inl (List.mem_of_find?_eq_some hfound)
  · exact .inr (by simpa using List.find?_some h)

/-- A compiled test is judged by the rows that its scope says. -/
theorem grouped_of_compileOne {index : Nat} {source : String}
    (h : scope.compileOne available index source = .ok t) :
    t.grouped = scope.grouped ∧ (t.grouped.isSome = true → t.bindings = Dict.empty) := by
  obtain ⟨expression, -, -, rfl⟩ := compileOne_eq_ok_iff.mp h
  exact ⟨rfl, fun hsome ↦ if_pos hsome⟩

end TestScope

/-- A grouped query has its rows for its only measurement. -/
theorem DeclaredMetric.keys_of_form? {d : DeclaredMetric} {f : CustomForm} (h : d.form? = some f)
    {key : MetricKey} (hgrouped : f.grouped = some key) : f.bindings.map Binding.key = [key] := by
  rcases form?_cases h with ⟨name, -, -, rfl⟩ | ⟨name, fields, -, -, -, rfl⟩ | ⟨-, -, rfl⟩
  · cases hgrouped
  · obtain rfl := Option.some.inj hgrouped
    rfl
  · cases hgrouped

/-- Tests of a custom query are declared with what it binds: as outputs, or as the rows to judge. -/
theorem DeclaredMetric.scope_of_plan {m : DeclaredMetric} {table : String}
    {others : List MetricKey} {b : DeclaredTests} (h : (m.plan table others).tests = some b) :
    (∀ key ∈ b.scope.outputs, key ∈ (m.plan table others).keys) ∧
      ∀ key, b.scope.grouped = some key → key ∈ (m.plan table others).keys := by
  obtain ⟨f, bindings, hf, hbindings, hnonempty, hgroup, rfl⟩ := exists_form_of_plan h
  have hkeys : ∀ key ∈ bindings.map Binding.key, key ∈ (m.plan table others).keys := by
    intro key hkey
    rw [CustomPlan.keys, hgroup]
    simpa [GroupSpec.keys] using hkey
  constructor
  · intro key hkey
    change key ∈ (if f.grouped.isSome = true then [] else bindings.map Binding.key) at hkey
    split at hkey
    · cases hkey
    · exact hkeys key hkey
  · intro key hgrouped
    -- The rows are the only output, and something was left to bind.
    obtain ⟨b, hb⟩ := List.exists_mem_of_ne_nil bindings hnonempty
    have hmem : b.key ∈ f.bindings.map Binding.key := by
      rw [hbindings] at hb
      exact List.mem_map_of_mem (List.mem_filter.mp hb).1
    rw [keys_of_form? hf hgrouped, List.mem_singleton] at hmem
    exact hkeys key (hmem ▸ List.mem_map_of_mem hb)

namespace Draft

variable {d : Draft}

/-- Tests are declared with what custom queries bind only. -/
theorem scope_of_mem_tests {b : DeclaredTests} (h : b ∈ d.tests) :
    (∀ key ∈ b.scope.outputs, key ∈ d.customKeys) ∧
      ∀ key, b.scope.grouped = some key → key ∈ d.customKeys := by
  rcases mem_tests_cases h with rfl | ⟨c, -, settings, -, rfl⟩ | ⟨m, -, others, hplan, htests⟩
  · exact ⟨nofun, nofun⟩
  · exact ⟨nofun, nofun⟩
  · obtain ⟨houtputs, hgrouped⟩ := DeclaredMetric.scope_of_plan htests
    exact ⟨fun key hkey ↦ List.mem_flatMap.mpr ⟨_, hplan, houtputs key hkey⟩,
      fun key hkey ↦ List.mem_flatMap.mpr ⟨_, hplan, hgrouped key hkey⟩⟩

/-- A test of a plan was compiled in the scope of a declaration. -/
theorem exists_compileOne_of_mem {t : CompiledTest} (h : t ∈ d.plan.tests) :
    ∃ b ∈ d.tests, ∃ index source,
      b.scope.compileOne (d.requests.map MetricRequest.key) index source = .ok t := by
  obtain ⟨b, hb, index, source, -, hone⟩ := exists_source_of_mem_tests h
  exact ⟨b, hb, index, source, hone⟩

theorem mem_requests_of_mem_customKeys {key : MetricKey} (h : key ∈ d.customKeys) :
    key ∈ d.requests.map MetricRequest.key := mem_keys_requests.mpr (.inr h)

/-- What a test of a plan is judged by is requested. -/
theorem mem_requests_of_grouped {t : CompiledTest} (h : t ∈ d.plan.tests) {key : MetricKey}
    (hgrouped : t.grouped = some key) : key ∈ d.requests.map MetricRequest.key := by
  obtain ⟨b, hb, index, source, hone⟩ := exists_compileOne_of_mem h
  rw [(TestScope.grouped_of_compileOne hone).1] at hgrouped
  exact mem_requests_of_mem_customKeys ((scope_of_mem_tests hb).2 key hgrouped)

/-- Every name of a test that is judged once is bound to something requested. -/
theorem exists_get?_bindings {t : CompiledTest} (h : t ∈ d.plan.tests) (hsingle : t.grouped = none)
    {name : String} (hname : name ∈ t.expression.tree.references) :
    ∃ key ∈ d.requests.map MetricRequest.key, t.bindings.get? name = some key := by
  obtain ⟨b, hb, index, source, hone⟩ := exists_compileOne_of_mem h
  obtain ⟨key, hkey⟩ := Option.isSome_iff_exists.mp
    (TestScope.isSome_resolve?_of_compileOne hone hsingle name hname)
  refine ⟨key, ?_, ?_⟩
  · obtain houtput | havailable := TestScope.mem_of_resolve? hkey
    · exact mem_requests_of_mem_customKeys ((scope_of_mem_tests hb).1 key houtput)
    · exact havailable
  · rw [TestScope.get?_bindings_of_compileOne hone hsingle, if_pos hname, hkey]

/-- Whatever a name of a test is bound to is requested. -/
theorem mem_requests_of_get?_bindings {t : CompiledTest} (h : t ∈ d.plan.tests) {name : String}
    {key : MetricKey} (hkey : t.bindings.get? name = some key) :
    key ∈ d.requests.map MetricRequest.key := by
  obtain ⟨b, hb, index, source, hone⟩ := exists_compileOne_of_mem h
  cases hgrouped : t.grouped with
  | some rows =>
    rw [(TestScope.grouped_of_compileOne hone).2 (by rw [hgrouped]; rfl), Dict.get?_empty] at hkey
    cases hkey
  | none =>
    by_cases hname : name ∈ t.expression.tree.references
    · obtain ⟨key', hrequested, hkey'⟩ := exists_get?_bindings h hgrouped hname
      rwa [Option.some.inj (hkey.symm.trans hkey')]
    · rw [TestScope.get?_bindings_of_compileOne hone hgrouped, if_neg hname] at hkey
      cases hkey

/-- What is requested is produced. -/
theorem mem_produced_of_mem_requests {key : MetricKey}
    (h : key ∈ d.requests.map MetricRequest.key) : key ∈ d.plan.produced.map Prod.fst := by
  rw [(d.produced_perm.map Prod.fst).mem_iff, List.map_append, List.mem_append]
  obtain hmeasured | hcustom := mem_keys_requests.mp h
  · exact .inl (mem_keys_catalogEntries.mpr (.inl hmeasured))
  · right
    rw [← keys_customGroups] at hcustom
    rw [List.map_flatMap]
    simpa only [GroupSpec.map_fst_entries] using hcustom

end Draft

/-! ### Scans -/

/-- What a plan produces is bound by a group or derived. -/
theorem Plan.exists_of_mem_produced {p : Plan} {key : MetricKey}
    (h : key ∈ p.produced.map Prod.fst) :
    (∃ g ∈ p.groups, ∃ b ∈ g.bindings, b.key = key) ∨ ∃ m ∈ p.derived, m.key = key := by
  obtain ⟨entry, hentry, rfl⟩ := List.mem_map.mp h
  obtain hentry | hentry := List.mem_append.mp hentry
  · obtain ⟨g, hg, hentry⟩ := List.mem_flatMap.mp hentry
    obtain ⟨b, hb, rfl⟩ := List.mem_map.mp hentry
    exact .inl ⟨g, hg, b, hb, rfl⟩
  · obtain ⟨m, hm, rfl⟩ := List.mem_map.mp hentry
    exact .inr ⟨m, hm, rfl⟩

namespace Scan

variable {scan : Scan} {p : Plan} {result : ScanResult}

/-- A result has its tests judged on everything that the plan produces, with a reason for whatever
has no value. -/
theorem ReportsOn.exists_measurements (h : scan.ReportsOn p result) :
    ∃ ms : MeasurementSet, result.tests = p.tests.flatMap (fun t ↦ t.evaluate ms) ∧
      (∀ key ∈ p.produced.map Prod.fst, ms.contains key = true) ∧
      ∀ m ∈ ms.entries, m.reading.Explained := by
  obtain ⟨r, run, rfl⟩ := h.exists_report
  refine ⟨(r.ledger.derive p.derived).measurements, rfl, fun key hkey ↦ ?_, ?_⟩
  · obtain ⟨ms, hledger, hentries⟩ := run.exists_recordAll
    rw [Ledger.derive_eq_recordAll, Ledger.contains_recordAll, Ledger.map_key_derivations, hledger,
      Ledger.contains_recordAll]
    have hkeys : ms.map Measurement.key =
        ((Phase.all.flatMap p.groupsIn).flatMap fun g ↦ g.entries).map Prod.fst := by
      rw [← hentries, List.map_map]
      rfl
    rw [Plan.produced, List.map_append, List.mem_append, List.map_map] at hkey
    obtain hkey | hkey := hkey
    · refine .inl (.inr ?_)
      have hperm := p.flatMap_groupsIn_perm.flatMap_right fun g ↦ g.entries
      rw [hkeys]
      exact (hperm.map Prod.fst).mem_iff.mpr hkey
    · exact .inr hkey
  · have hbegun : (scan.begun p).ledger.Explained := scan.all_begun fun h ↦ by cases h
    exact (run.explained hbegun).derive p.derived

end Scan

/-- In the plan of any configuration, every name of a test that is judged once is bound to a key
that is requested, and every key that is requested is bound by a group or derived. So in every
result of a scan, whatever the warehouse answers, the tests are judged on measurements that have
every key that they read, and no test has the error of a name without a binding or of a key that was
not measured. -/
theorem Plan.tests_never_dangle {w : Warehouse} {cap : Nat} {config : ScanConfiguration}
    {columns : List TableColumn} {p : Plan} (hplan : config.plan w cap columns = .ok p) :
    (∀ t ∈ p.tests, t.grouped = none → ∀ name ∈ t.expression.tree.references,
        ∃ r ∈ p.requests, t.bindings.get? name = some r.key) ∧
      (∀ r ∈ p.requests, (∃ g ∈ p.groups, ∃ b ∈ g.bindings, b.key = r.key) ∨
        ∃ m ∈ p.derived, m.key = r.key) ∧
      ∀ (scan : Scan) (result : ScanResult), scan.ReportsOn p result →
        ∃ ms : MeasurementSet, result.tests = p.tests.flatMap (fun t ↦ t.evaluate ms) ∧
          ∀ t ∈ p.tests,
            (∀ key, t.grouped = some key → ms.contains key = true) ∧
            (∀ name key, t.bindings.get? name = some key → ms.contains key = true) ∧
            ∀ r ∈ t.evaluate ms,
              (∀ name, r.error ≠ some (EvaluationError.unbound name).message) ∧
              ∀ name, t.Mentions name →
                r.error ≠ some (EvaluationError.unavailable name "not measured").message := by
  obtain ⟨_, source, _, rfl⟩ := ScanConfiguration.plan_eq_ok_iff.mp hplan
  let d : Draft := ⟨w, cap, config, columns, source⟩
  refine ⟨?_, ?_, ?_⟩
  · intro t ht hsingle name hname
    obtain ⟨key, hrequested, hkey⟩ := Draft.exists_get?_bindings (d := d) ht hsingle hname
    obtain ⟨r, hr, rfl⟩ := List.mem_map.mp hrequested
    exact ⟨r, hr, hkey⟩
  · intro r hr
    exact exists_of_mem_produced
      (Draft.mem_produced_of_mem_requests (d := d) (List.mem_map_of_mem hr))
  · intro scan result hreports
    obtain ⟨ms, htests, hcontains, hexplained⟩ := hreports.exists_measurements
    refine ⟨ms, htests, fun t ht ↦ ?_⟩
    have hserved : t.Served ms := by
      refine ⟨fun hsingle name hname ↦ ?_, fun name key hkey ↦ ?_, fun key hgrouped ↦ ?_,
        hexplained⟩
      · obtain ⟨key, -, hkey⟩ := Draft.exists_get?_bindings (d := d) ht hsingle hname
        rw [hkey]
        rfl
      · exact hcontains key (Draft.mem_produced_of_mem_requests
          (Draft.mem_requests_of_get?_bindings (d := d) ht hkey))
      · exact hcontains key (Draft.mem_produced_of_mem_requests
          (Draft.mem_requests_of_grouped (d := d) ht hgrouped))
    obtain ⟨b, -, index, text, hone⟩ := Draft.exists_compileOne_of_mem (d := d) ht
    have hparse := (TestScope.standsFor_of_compileOne hone).expression
    exact ⟨hserved.grouped, hserved.recorded, fun r hr ↦
      hserved.error_ne (fun name hname ↦ TestExpression.quote_not_mem hparse hname) hr⟩

/-- A table of orders of which a custom query measures two values, with a test of either. -/
def pollConfiguration : ScanConfiguration :=
  { tallyConfiguration ["a", "b"] with tests := ["a or b"] }

/-- The draft of its plan. -/
def pollDraft : Draft :=
  ⟨.postgreSQL, 0, pollConfiguration, tallyColumns,
    .withFilter (Warehouse.postgreSQL.qualifyTable "orders") none⟩

/-- The plan of the poll has the test, with the two values to choose from. -/
theorem tests_pollDraft : pollDraft.plan.tests = [CompiledTest.alternative] := by
  have hmeasured : pollDraft.measured = [] := Draft.measured_of_nothing rfl rfl rfl
  have hplanned := @Draft.planned_of_nothing pollDraft rfl rfl rfl
  have hrequests : pollDraft.requests.map MetricRequest.key = [.ofTable "a", .ofTable "b"] := by
    rw [Draft.requests, Draft.customKeys, Draft.customs, Draft.declared, hmeasured, hplanned]
    rfl
  have htests : pollDraft.tests = [⟨.ofTable "orders", ["a or b"]⟩,
      ⟨⟨"orders.sql_metrics[0]", none, [.ofTable "a", .ofTable "b"], none⟩, []⟩] := by
    rw [Draft.tests, Draft.customs, Draft.declared, hmeasured, hplanned]
    rfl
  rw [Draft.plan_tests, Draft.compiled, hrequests, htests, List.flatMap_cons,
    DeclaredTests.compile, TestScope.compileFrom, CompiledTest.compileOne_alternative]
  rfl

/-- The only test of the poll finds both values recorded. -/
theorem pollConfiguration_tests_never_dangle :
    ∃ p, pollConfiguration.plan .postgreSQL 0 tallyColumns = .ok p ∧
      p.tests = [CompiledTest.alternative] ∧
      (∃ r ∈ p.requests, CompiledTest.alternative.bindings.get? "b" = some r.key) ∧
      ∃ result, ((Scan.ofConfiguration .postgreSQL pollConfiguration).execute tallySession p).2 =
          .ok result ∧
        ∃ ms, result.tests = CompiledTest.alternative.evaluate ms ∧
          ms.contains (.ofTable "a") = true ∧ ms.contains (.ofTable "b") = true := by
  have hplan : pollConfiguration.plan .postgreSQL 0 tallyColumns = .ok pollDraft.plan :=
    ScanConfiguration.plan_eq_ok_iff.mpr ⟨rfl, _, rfl, rfl⟩
  have hkeeps : tallySession.KeepsConnection := by
    intro asked sql e h
    cases h
  have hstage : (Scan.ofConfiguration .postgreSQL pollConfiguration).stage = .initialized := rfl
  obtain ⟨result, hresult⟩ := Scan.exists_result (p := pollDraft.plan) hkeeps hstage
  obtain ⟨hbound, -, hscans⟩ := Plan.tests_never_dangle hplan
  obtain ⟨ms, hms, hserved⟩ := hscans _ result (.sequential tallySession hresult)
  rw [tests_pollDraft] at hbound hms hserved
  have hmem := List.mem_singleton_self CompiledTest.alternative
  have hrecorded := (hserved _ hmem).2.1
  refine ⟨_, hplan, tests_pollDraft, ?_, result, hresult, ms, ?_, hrecorded "a" _ rfl,
    hrecorded "b" _ rfl⟩
  · exact hbound _ hmem rfl "b" (by simp [CompiledTest.alternative, Expr.references])
  · rw [hms, List.flatMap_cons, List.flatMap_nil, List.append_nil]

end DataQuality
