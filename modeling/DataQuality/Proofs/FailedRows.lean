import DataQuality.Proofs.CustomReports
import DataQuality.Proofs.ImpliedTests
import DataQuality.Proofs.MeasuredFirst
import DataQuality.Proofs.RequestedMetrics

/-!
# Rows that should not be there

A query for rows that should not be there comes with a test that is made of its name. If the name is
a word and no keyword, and neither the number of rows nor the columns of the table go by it, the
test tells in every scan whether there were rows. In all other cases the test does not look at the
query at all, so there are scans in which it is wrong.
-/

namespace DataQuality

/-! ### Runs that differ in one turn -/

/-- Runs in which groups are given the same turns are the same. -/
theorem Run.takeChosen_congr {w : Warehouse} {p : Plan} {c c' : TurnChoice w} {phases : List Phase}
    (h : ∀ phase ∈ phases, ∀ g ∈ p.groupsIn phase, ∀ measured,
      c.turn g measured = c'.turn g measured)
    (r : Run) : r.takeChosen c p phases = r.takeChosen c' p phases := by
  refine List.foldl_ext _ _ _ fun r phase hphase ↦ ?_
  rw [List.map_congr_left fun g hg ↦ h phase hphase g hg r.ledger.measurements]

/-- The run of a scan up to the custom queries. -/
def Scan.catalogRun (scan : Scan) (p : Plan) (c : TurnChoice scan.dialect) : Run :=
  (scan.begun p).takeChosen c p [.aggregate, .distribution]

namespace Draft

variable {d : Draft} {scan : Scan} {c c' : TurnChoice scan.dialect} {g : QueryGroup}
  {key : MetricKey}

/-- Before the custom queries the columns of the table are recorded. -/
theorem contains_catalogRun_schema (d : Draft) (scan : Scan) (c : TurnChoice scan.dialect) :
    (scan.catalogRun d.plan c).ledger.measurements.contains (.ofTable schemaMetric) = true := by
  have hrun := Run.completes_takeChosen (p := d.plan) c (scan.begun d.plan)
    [.aggregate, .distribution]
  obtain ⟨ms, hledger, -⟩ := hrun.exists_recordAll
  unfold Scan.catalogRun
  rw [hledger, Ledger.contains_recordAll]
  exact .inl rfl

/-- Before the custom queries everything is recorded that groups of the catalog bind. -/
theorem contains_catalogRun_of_mem_keys (hg : g ∈ d.plan.groups) (hphase : g.phase ≠ .custom)
    (hkey : key ∈ g.keys) : (scan.catalogRun d.plan c).ledger.measurements.contains key = true := by
  have hrun := Run.completes_takeChosen (p := d.plan) c (scan.begun d.plan)
    [.aggregate, .distribution]
  refine hrun.contains_of_mem_keys (List.mem_flatMap.mpr ⟨g.phase, ?_, ?_⟩) hkey
  · revert hphase
    cases g.phase <;> decide
  · exact Plan.mem_groupsIn_iff.mpr ⟨hg, rfl⟩

/-- Before the custom queries the number of rows is recorded, even if only one of them binds it. -/
theorem contains_catalogRun_rowCount (hg : g ∈ d.plan.groups) (hphase : g.phase = .custom)
    (hkey : .ofTable Metric.rowCount.name ∈ g.keys) :
    (scan.catalogRun d.plan c).ledger.measurements.contains (.ofTable Metric.rowCount.name) =
      true := by
  have hrequested : .ofTable Metric.rowCount.name ∈ d.requests.map MetricRequest.key :=
    mem_keys_requests.mpr (.inr (exists_custom_group_iff.mp ⟨g, hg, hphase, hkey⟩))
  obtain ⟨h, hh, hfirst, hbound⟩ := exists_aggregate_group_of_rowCount hrequested
  exact contains_catalogRun_of_mem_keys hh (by rw [hfirst]; decide) hbound

/-- What a derived metric reads of a custom query is recorded before the query is asked. -/
theorem contains_catalogRun_of_mem_reads (hg : g ∈ d.plan.groups) (hphase : g.phase = .custom)
    (hkey : key ∈ g.keys) {m : DerivedMetric} (hm : m ∈ d.plan.derived) (hread : key ∈ m.reads) :
    (scan.catalogRun d.plan c).ledger.measurements.contains key = true := by
  by_cases hrow : key = .ofTable Metric.rowCount.name
  · subst hrow
    exact contains_catalogRun_rowCount hg hphase hkey
  · obtain ⟨before, after, hsplit⟩ := List.append_of_mem hm
    have hreads := d.readsKnown_derived
    rw [← plan_derived, hsplit] at hreads
    obtain ⟨h, hh, hcatalog, hbound⟩ | ⟨e, he, rfl⟩ := hreads.of_mem_reads hread
    · exact contains_catalogRun_of_mem_keys hh hcatalog hbound
    · refine absurd ?_ (exists_append_of_custom hg hphase hkey hrow).2
      rw [hsplit]
      exact List.mem_map_of_mem (List.mem_append_left _ he)

/-- In two scans that differ in the turn of a custom query only, the same is found for every key
that the query does not bind or that is recorded before it is asked. -/
theorem get?_derive_eq (hg : g ∈ d.plan.groups) (hphase : g.phase = .custom)
    (hsame : ∀ h ∈ d.plan.groups, h ≠ g → ∀ measured, c.turn h measured = c'.turn h measured)
    (hkey : key ∉ g.keys ∨ (scan.catalogRun d.plan c).ledger.measurements.contains key = true) :
    ((scan.chosenRun d.plan c).ledger.derive d.plan.derived).measurements.get? key =
      ((scan.chosenRun d.plan c').ledger.derive d.plan.derived).measurements.get? key := by
  have hcatalog : scan.catalogRun d.plan c = scan.catalogRun d.plan c' := by
    refine Run.takeChosen_congr (fun phase hmem h hh measured ↦ ?_) _
    obtain ⟨hplanned, hin⟩ := Plan.mem_groupsIn_iff.mp hh
    refine hsame h hplanned ?_ measured
    rintro rfl
    rw [← hin, hphase] at hmem
    exact absurd hmem (by decide)
  let before := scan.catalogRun d.plan c
  let turns (c : TurnChoice scan.dialect) : List Turn :=
    (d.plan.groupsIn .custom).map fun h ↦ c.turn h before.ledger.measurements
  have hrun : scan.chosenRun d.plan c = before.take (turns c) := rfl
  have hrun' : scan.chosenRun d.plan c' = before.take (turns c') := by
    change (scan.catalogRun d.plan c').take ((d.plan.groupsIn .custom).map fun h ↦
      c'.turn h (scan.catalogRun d.plan c').ledger.measurements) = _
    rw [← hcatalog]
  -- A group binds the key only if it has the same turn in both runs.
  have hturns : ∀ key, key ∉ g.keys →
      ((turns c).flatMap fun t ↦ t.outcome.measurements).find? (fun m ↦ m.key = key) =
        ((turns c').flatMap fun t ↦ t.outcome.measurements).find? (fun m ↦ m.key = key) := by
    intro key hkey
    simp only [turns, List.flatMap_map]
    refine find?_flatMap_congr fun h hh ↦ ?_
    by_cases heq : h = g
    · subst heq
      rw [(c.takes h _).find?_eq_none hkey, (c'.takes h _).find?_eq_none hkey]
    · rw [hsame h (Plan.mem_groupsIn_iff.mp hh).1 heq]
  have hfound : ∀ key, key ∉ g.keys ∨ before.ledger.measurements.contains key = true →
      (before.take (turns c)).ledger.measurements.get? key =
        (before.take (turns c')).ledger.measurements.get? key := by
    intro key hkey
    change (before.ledger.recordAll _).measurements.get? key =
      (before.ledger.recordAll _).measurements.get? key
    obtain hkey | hrecorded := hkey
    · rw [Ledger.get?_recordAll, Ledger.get?_recordAll, hturns key hkey]
    · rw [Ledger.get?_recordAll_of_contains hrecorded, Ledger.get?_recordAll_of_contains hrecorded]
  have hreads : ∀ m ∈ d.plan.derived, ∀ key ∈ m.reads,
      key ∉ g.keys ∨ before.ledger.measurements.contains key = true := by
    intro m hm key hread
    rw [or_iff_not_imp_left, not_not]
    exact fun hbound ↦ contains_catalogRun_of_mem_reads hg hphase hbound hm hread
  have hderived := Ledger.derivations_congr_of_reads hreads hfound
  rw [hrun, hrun', Ledger.derive_eq_recordAll, Ledger.derive_eq_recordAll, Ledger.get?_recordAll,
    Ledger.get?_recordAll, hfound key hkey, hderived]

end Draft

/-! ### The count of a query -/

/-- How a test of the number of rows ends that came of a query. -/
def GroupOutcome.rowVerdict (o : GroupOutcome) : TestOutcome :=
  match o.asked with
  | some ⟨_, .ok 0⟩ => .passed
  | some ⟨_, .ok (_ + 1)⟩ => .failed
  | _ => .error

/-- The result of a test counts the rows of a group: it tells whether the query of the group came
back without rows, with rows, or not at all. -/
structure TestResult.CountsRows (res : TestResult) (timings : List QueryTiming) (id : Nat) :
    Prop where
  passed : res.outcome = .passed ↔
    ∃ q ∈ timings, q.groupId = id ∧ q.succeeded = true ∧ q.rowCount = 0
  failed : res.outcome = .failed ↔
    ∃ q ∈ timings, q.groupId = id ∧ q.succeeded = true ∧ 0 < q.rowCount
  error : res.outcome = .error ↔ ∀ q ∈ timings, q.groupId = id → q.succeeded = false

/-- A result counts the rows of a group if it is the verdict on what came of its turn. -/
theorem Run.Settles.countsRows {r : Run} {w : Warehouse} {p : Plan} {g : QueryGroup} {t : Turn}
    {key : MetricKey} (h : r.Settles w p g t key) {res : TestResult}
    (hres : res.outcome = t.outcome.rowVerdict) :
    res.CountsRows (r.turns.filterMap fun u ↦ u.outcome.timing?) g.id := by
  have hsome : ∀ P : QueryTiming → Prop,
      (∃ q ∈ r.turns.filterMap (fun u ↦ u.outcome.timing?), q.groupId = g.id ∧ P q) ↔
        ∃ q, t.outcome.timing? = some q ∧ P q := by
    intro P
    simp only [← h.mem_timings_iff, and_assoc]
  have hall : (∀ q ∈ r.turns.filterMap (fun u ↦ u.outcome.timing?), q.groupId = g.id →
      q.succeeded = false) ↔ ∀ q, t.outcome.timing? = some q → q.succeeded = false := by
    simp only [← h.mem_timings_iff, and_imp]
  refine ⟨?_, ?_, ?_⟩
  all_goals
    first | rw [hsome] | rw [hall]
    rw [hres, GroupOutcome.rowVerdict, GroupOutcome.timing?]
    obtain - | ⟨sql, (e | (- | n))⟩ := t.outcome.asked <;>
      simp [AskedQuery.succeeded, AskedQuery.rowCount, Except.isOk, Except.toBool]

/-- The turn of a group that counts rows under its only key leaves their number, or else no value if
the query was not answered. -/
theorem QueryGroup.TakesTurn.find?_rowCount {w : Warehouse} {measured : MeasurementSet}
    {g : QueryGroup} {t : Turn} (h : g.TakesTurn w measured t) {sql : String}
    (hquery : g.query = .sql sql) (hshape : g.shape = .rowCount) {b : Binding}
    (hbinding : g.bindings = [b]) :
    ∃ m, t.outcome.measurements.find? (fun m ↦ m.key = b.key) = some m ∧
      ((∃ count : Nat, m.reading = .measured (.int count) ∧
          t.outcome.rowVerdict = if count = 0 then .passed else .failed) ∨
        m.reading.value? = none ∧ t.outcome.rowVerdict = .error) := by
  have hone : ∀ reading : Reading,
      ((Binding.all g.bindings reading).find? fun m ↦ m.key = b.key) =
        some ⟨b.key, reading, b.internal⟩ := by
    intro reading
    rw [hbinding]
    exact List.find?_cons_of_pos (decide_eq_true rfl)
  cases h with
  | skipped => exact ⟨_, hone _, .inr ⟨rfl, rfl⟩⟩
  | ran answer =>
    rw [g.run_of_sql hquery]
    cases answer sql with
    | error e => exact ⟨_, hone _, .inr ⟨rfl, rfl⟩⟩
    | ok rows =>
      refine ⟨⟨b.key, .measured (.int rows.size), b.internal⟩, ?_, .inl ⟨rows.size, rfl, ?_⟩⟩
      · change (g.measure rows none).find? _ = _
        rw [GroupSpec.measure, hbinding, hshape]
        exact List.find?_cons_of_pos (decide_eq_true rfl)
      · change GroupOutcome.rowVerdict ⟨g.id, g.label, _, some ⟨sql, .ok rows.size⟩⟩ = _
        unfold GroupOutcome.rowVerdict
        cases rows.size <;> rfl

/-! ### Planned tests -/

/-- No issue of the plan is about a test with the given text. -/
def Plan.AcceptsTest (p : Plan) (source : String) : Prop :=
  ∀ i ∈ p.issues, i.kind = .malformedTest ∨ i.kind = .unresolvedIdentifier → i.subject ≠ source

/-- A plan without issues has none about a test. -/
theorem Plan.acceptsTest_of_issues {p : Plan} (h : p.issues = []) (source : String) :
    p.AcceptsTest source := by
  intro i hi
  rw [h] at hi
  cases hi

/-- What the result of a query for rows that should not be there means. -/
def DeclaredMetric.countForm (d : DeclaredMetric) (name : String) : CustomForm :=
  ⟨.rowCount, [d.binding name none], (name ++ " == 0") :: d.metric.tests, none⟩

/-- A query for rows that should not be there has a name if it has a form. -/
theorem DeclaredMetric.exists_countForm {d : DeclaredMetric} (hkind : d.metric.kind = .failedRows)
    {f : CustomForm} (h : d.form? = some f) :
    ∃ name, d.metric.name = some name ∧ f = d.countForm name := by
  rcases form?_cases h with ⟨name, -, hname, rfl⟩ | ⟨name, fields, hnumeric, -⟩ | ⟨hnumeric, -⟩
  · exact ⟨name, hname, rfl⟩
  · rw [hkind] at hnumeric
    cases hnumeric
  · rw [hkind] at hnumeric
    cases hnumeric

/-- A name stands for the output of its scope that has the name. -/
theorem TestScope.resolve?_of_outputs {scope : TestScope} {name : String} {key : MetricKey}
    (h : (scope.outputs.find? fun k ↦ k.name == name) = some key) (available : List MetricKey) :
    scope.resolve? available name = some key := by
  unfold resolve?
  rw [h]

/-- A plan has the rows of a query counted by a group, under the name of the query and nothing else,
and compares the name with zero in a test. -/
structure Draft.TestsRows (draft : Draft) (d : DeclaredMetric) (name : String) (g : QueryGroup)
    (t : CompiledTest) : Prop where
  group : g ∈ draft.plan.groups
  spec : g.toGroupSpec = d.groupOf (d.countForm name)
  test : t ∈ draft.plan.tests
  compiled : (d.scope draft.config.tableName [d.binding name none] none).compileOne
    (draft.requests.map MetricRequest.key) 0 (name ++ " == 0") = .ok t

/-- A query without issues, and without any about its test, has its rows counted and tested. -/
theorem Draft.exists_testsRows {draft : Draft} {d : DeclaredMetric} (hd : d ∈ draft.declared)
    (hkind : d.metric.kind = .failedRows) (haccepted : draft.plan.Accepts d)
    (htest : ∀ name ∈ d.metric.name, draft.plan.AcceptsTest (name ++ " == 0")) :
    ∃ name g t, d.metric.name = some name ∧ draft.TestsRows d name g t := by
  obtain ⟨f, hf, ⟨g, hg, hspec⟩, hdeclared⟩ := Draft.exists_of_accepts hd haccepted
  obtain ⟨name, hname, rfl⟩ := DeclaredMetric.exists_countForm hkind hf
  have hmem : (d.scope draft.config.tableName [d.binding name none] none).compileOne
      (draft.requests.map MetricRequest.key) 0 (name ++ " == 0") ∈ draft.compiled :=
    List.mem_flatMap.mpr ⟨_, hdeclared, List.mem_cons_self⟩
  cases hcompiled : (d.scope draft.config.tableName [d.binding name none] none).compileOne
      (draft.requests.map MetricRequest.key) 0 (name ++ " == 0") with
  | error i =>
    rw [hcompiled] at hmem
    obtain ⟨hissue, hsubject⟩ := TestScope.of_compileOne_eq_error hcompiled
    refine absurd hsubject (htest name hname i ?_ hissue)
    rw [plan_issues]
    exact List.mem_append_right _ (mem_failures_iff.mpr hmem)
  | ok t =>
    rw [hcompiled] at hmem
    refine ⟨name, g, t, hname, hg, hspec, ?_, hcompiled⟩
    rw [plan_tests]
    exact mem_successes_iff.mpr hmem

namespace Draft.TestsRows

variable {draft : Draft} {d : DeclaredMetric} {name : String} {g : QueryGroup} {t : CompiledTest}

theorem keys (h : draft.TestsRows d name g t) : g.keys = [d.key name] := by
  rw [h.spec]
  rfl

theorem phase (h : draft.TestsRows d name g t) : g.phase = .custom := by
  rw [h.spec]
  rfl

theorem query (h : draft.TestsRows d name g t) : g.query = .sql d.metric.sql := by
  rw [h.spec]
  rfl

theorem grouped (h : draft.TestsRows d name g t) : t.grouped = none :=
  (TestScope.grouped_of_compileOne h.compiled).1

/-- If the name is a word and no keyword, and neither the number of rows nor the columns of the
table go by it, the test counts the rows in every scan. -/
theorem exists_countsRows (h : draft.TestsRows d name g t)
    (hspells : Token.Spells name.toList (.identifier name))
    (hrow : d.key name ≠ .ofTable Metric.rowCount.name)
    (hschema : d.key name ≠ .ofTable schemaMetric)
    {scan : Scan} {r : Run} {result : ScanResult} (hreports : scan.ReportsRun draft.plan r result) :
    ∃ res, t.evaluate (r.ledger.derive draft.plan.derived).measurements = [res] ∧
      res.CountsRows result.timings g.id := by
  obtain ⟨u, hu⟩ := hreports.exists_settles h.group h.phase
    (by rw [h.keys]; exact List.mem_singleton_self _) hrow hschema
  obtain ⟨measured, htakes⟩ := hu.takes
  obtain ⟨m, hm, hcases⟩ := htakes.find?_rowCount h.query (by rw [h.spec]; rfl)
    (b := d.binding name none) (by rw [h.spec]; rfl)
  have hget : (r.ledger.derive draft.plan.derived).measurements.get? (d.key name) = some m :=
    hu.recorded.trans hm
  obtain ⟨htree, hbound⟩ := TestScope.compileOne_zero h.compiled h.grouped hspells
  have hresolve : (d.scope draft.config.tableName [d.binding name none] none).resolve?
      (draft.requests.map MetricRequest.key) name = some (d.key name) := by
    refine TestScope.resolve?_of_outputs ?_ _
    exact List.find?_cons_of_pos (beq_self_eq_true name)
  rw [hresolve] at hbound
  have hverdict : ∃ res, t.evaluate (r.ledger.derive draft.plan.derived).measurements = [res] ∧
      res.outcome = u.outcome.rowVerdict := by
    obtain ⟨count, hreading, hrows⟩ | ⟨hreading, hrows⟩ := hcases
    · rw [hrows]
      exact CompiledTest.evaluate_zero_of_count h.grouped htree hbound hget hreading
    · rw [hrows]
      exact CompiledTest.evaluate_of_no_value h.grouped (by rw [hbound, if_pos rfl]) hget hreading
  obtain ⟨res, hres, houtcome⟩ := hverdict
  refine ⟨res, hres, ?_⟩
  rw [hreports.result]
  exact hu.countsRows houtcome

/-- In all other cases the test looks at nothing that only its query tells. -/
theorem contains_of_mem_reads (h : draft.TestsRows d name g t)
    (hnot : ¬ (Token.Spells name.toList (.identifier name) ∧
      d.key name ≠ .ofTable Metric.rowCount.name ∧ d.key name ≠ .ofTable schemaMetric))
    {scan : Scan} (c : TurnChoice scan.dialect) {key : MetricKey} (hkey : key ∈ t.reads) :
    key ∉ g.keys ∨ (scan.catalogRun draft.plan c).ledger.measurements.contains key = true := by
  rw [or_iff_not_imp_left, not_not]
  intro hmem
  have hname : key = d.key name := by
    rw [h.keys] at hmem
    exact List.mem_singleton.mp hmem
  have hspells : Token.Spells name.toList (.identifier name) := by
    by_contra hspells
    have houtputs : ∀ k ∈ [d.key name], k.name = name := by
      intro k hk
      rw [List.mem_singleton.mp hk]
      rfl
    refine TestScope.name_ne_of_mem_reads h.compiled h.grouped houtputs hspells hkey ?_
    rw [hname]
    rfl
  by_cases hrow : key = .ofTable Metric.rowCount.name
  · subst hrow
    exact Draft.contains_catalogRun_rowCount h.group h.phase hmem
  · have hschema : key = .ofTable schemaMetric := by
      by_contra hschema
      exact hnot ⟨hspells, hname ▸ hrow, hname ▸ hschema⟩
    rw [hschema]
    exact draft.contains_catalogRun_schema scan c

end Draft.TestsRows

/-! ### Scans in which only one query comes to rows -/

/-- The turns in which all queries are answered without rows, except that those of groups with a
given number come to some. -/
def TurnChoice.withRows (w : Warehouse) (id count : Nat) : TurnChoice w :=
  .ofAnswers w (fun g _ ↦ .ok ⟨[], List.replicate (if g.id = id then count else 0) []⟩)
    fun _ _ _ h ↦ by cases h

theorem TurnChoice.turn_withRows (w : Warehouse) (id count : Nat) (g : QueryGroup)
    (measured : MeasurementSet) :
    (withRows w id count).turn g measured =
      ⟨g.run w (fun _ ↦ .ok ⟨[], List.replicate (if g.id = id then count else 0) []⟩) measured,
        false⟩ := rfl

/-- The query of the group comes to the rows. -/
theorem Draft.exists_timing_withRows {draft : Draft} {g : QueryGroup} (hg : g ∈ draft.plan.groups)
    {sql : String} (hquery : g.query = .sql sql) (scan : Scan) (count : Nat) :
    ∃ q ∈ (scan.chosenResult draft.plan (.withRows scan.dialect g.id count)).timings,
      q.groupId = g.id ∧ q.succeeded = true ∧ q.rowCount = count := by
  refine ⟨_, Draft.mem_timings_ofAnswers scan hg hquery rfl, rfl, rfl, ?_⟩
  change (List.replicate (if g.id = g.id then count else 0) ([] : List Value)).length = count
  rw [if_pos rfl, List.length_replicate]

/-- A test that looks at nothing that only the query tells ends alike whether the query comes to
rows or not. -/
theorem Draft.evaluate_withRows {draft : Draft} {scan : Scan} {g : QueryGroup} {t : CompiledTest}
    (hg : g ∈ draft.plan.groups) (hphase : g.phase = .custom) (count : Nat)
    (hreads : ∀ (c : TurnChoice scan.dialect), ∀ key ∈ t.reads, key ∉ g.keys ∨
      (scan.catalogRun draft.plan c).ledger.measurements.contains key = true) :
    t.evaluate ((scan.chosenRun draft.plan (.withRows scan.dialect g.id count)).ledger.derive
        draft.plan.derived).measurements =
      t.evaluate ((scan.chosenRun draft.plan (.withRows scan.dialect g.id 0)).ledger.derive
        draft.plan.derived).measurements := by
  refine CompiledTest.evaluate_congr fun key hkey ↦
    Draft.get?_derive_eq hg hphase (fun h hh hne measured ↦ ?_) (hreads _ key hkey)
  have hids : (draft.plan.groups.map QueryGroup.id).Nodup := by
    rw [Draft.plan_groups]
    exact nodup_id_numberGroups _ _
  have hother : h.id ≠ g.id := fun hid ↦ hne (List.inj_on_of_nodup_map hids hh hg hid)
  rw [TurnChoice.turn_withRows, TurnChoice.turn_withRows, if_neg hother, if_neg hother]

/-- A test that counts the rows of a query in every scan has for a name a word that is no keyword,
and neither the number of rows nor the columns of the table go by it. -/
theorem Draft.TestsRows.spells_of_countsRows {draft : Draft} {d : DeclaredMetric} {name : String}
    {g : QueryGroup} {t : CompiledTest} (h : draft.TestsRows d name g t) (scan : Scan)
    (hcounts : ∀ r result, scan.ReportsRun draft.plan r result →
      ∃ res, t.evaluate (r.ledger.derive draft.plan.derived).measurements = [res] ∧
        res.CountsRows result.timings g.id) :
    Token.Spells name.toList (.identifier name) ∧
      d.key name ≠ .ofTable Metric.rowCount.name ∧ d.key name ≠ .ofTable schemaMetric := by
  by_contra hnot
  have hresult : ∀ count, ∃ res,
      t.evaluate ((scan.chosenRun draft.plan (.withRows scan.dialect g.id count)).ledger.derive
        draft.plan.derived).measurements = [res] ∧
      (count = 0 → res.outcome = .passed) ∧ (0 < count → res.outcome = .failed) := by
    intro count
    obtain ⟨res, hres, hrows⟩ := hcounts _ _ (scan.reports_chosen draft.plan _)
    obtain ⟨q, hq, hid, hsucceeded, hcount⟩ :=
      Draft.exists_timing_withRows h.group h.query scan count
    refine ⟨res, hres, fun hnone ↦ hrows.passed.mpr ⟨q, hq, hid, hsucceeded, ?_⟩,
      fun hsome ↦ hrows.failed.mpr ⟨q, hq, hid, hsucceeded, ?_⟩⟩
    · exact hcount.trans hnone
    · rw [hcount]
      exact hsome
  obtain ⟨res, hres, hpassed, -⟩ := hresult 0
  obtain ⟨res', hres', -, hfailed⟩ := hresult 1
  have hsame := Draft.evaluate_withRows h.group h.phase 1
    fun c : TurnChoice scan.dialect ↦ fun _ hkey ↦ h.contains_of_mem_reads hnot c hkey
  rw [hres, hres'] at hsame
  obtain rfl := (List.cons.inj hsame).1
  have hclash := (hpassed rfl).symm.trans (hfailed Nat.one_pos)
  cases hclash

/-- Let a query for rows that should not be there have no issue, and its test neither. It has a
name, and it is planned as a group that counts the rows under the name, with a compiled test that
the name is zero. In every scan of the plan the test passes if the query came back without rows,
fails if it came back with rows, and is an error if it did not come back, exactly if the name is a
word and no keyword, and neither the number of rows nor the columns of the table go by it. -/
theorem ScanConfiguration.countsRows_iff_isWord {w : Warehouse} {cap : Nat}
    {config : ScanConfiguration} {columns : List TableColumn} {p : Plan}
    (hplan : config.plan w cap columns = .ok p) {d : DeclaredMetric}
    (hd : d ∈ config.customQueries columns) (hkind : d.metric.kind = .failedRows)
    (haccepted : p.Accepts d) (htest : ∀ name ∈ d.metric.name, p.AcceptsTest (name ++ " == 0")) :
    ∃ (name : String) (g : QueryGroup) (t : CompiledTest), d.metric.name = some name ∧
      (g ∈ p.groups ∧ g.label = d.label ∧ g.query = .sql d.metric.sql ∧ g.shape = .rowCount ∧
        g.keys = [d.key name]) ∧
      (t ∈ p.tests ∧ t.id = config.tableName ++ "." ++ d.label ++ "#0" ∧ t.grouped = none ∧
        TestExpression.parse (name ++ " == 0") = .ok t.expression) ∧
      ((∀ (scan : Scan) (r : Run) (result : ScanResult), scan.ReportsRun p r result →
          ∃ res ∈ result.tests,
            t.evaluate (r.ledger.derive p.derived).measurements = [res] ∧
              res.CountsRows result.timings g.id) ↔
        (Token.IsWord name ∧ Token.ofWord name = .identifier name) ∧
          d.key name ≠ .ofTable Metric.rowCount.name ∧ d.key name ≠ .ofTable schemaMetric) := by
  obtain ⟨_, source, _, rfl⟩ := ScanConfiguration.plan_eq_ok_iff.mp hplan
  let draft : Draft := ⟨w, cap, config, columns, source⟩
  have hdeclared : d ∈ draft.declared := by
    rw [draft.declared_eq]
    exact hd
  obtain ⟨name, g, t, hname, h⟩ := Draft.exists_testsRows hdeclared hkind haccepted htest
  have hstands := TestScope.standsFor_of_compileOne h.compiled
  have hid : t.id = config.tableName ++ "." ++ d.label ++ "#0" := by
    refine hstands.id.trans ?_
    change config.tableName ++ "." ++ d.label ++ "#" ++ Number.natText 0 = _
    rw [@String.append_assoc _ "#" _]
    rfl
  refine ⟨name, g, t, hname, ⟨h.group, by rw [h.spec]; rfl, h.query, by rw [h.spec]; rfl, h.keys⟩,
    ⟨h.test, hid, h.grouped, hstands.expression⟩, ?_⟩
  rw [← Token.spells_identifier_iff]
  constructor
  · intro hcounts
    refine h.spells_of_countsRows (Scan.ofConfiguration w config) fun r result hreports ↦ ?_
    obtain ⟨res, -, hres⟩ := hcounts _ r result hreports
    exact ⟨res, hres⟩
  · rintro ⟨hspells, hrow, hschema⟩ scan r result hreports
    obtain ⟨res, hres, hrows⟩ := h.exists_countsRows hspells hrow hschema hreports
    refine ⟨res, ?_, hres, hrows⟩
    rw [hreports.result]
    exact List.mem_flatMap.mpr ⟨t, h.test, by rw [hres]; exact List.mem_singleton_self res⟩

/-- A query for negative totals. -/
def negativesQuery (name : String) : DeclaredMetric :=
  ⟨none, 0, .failedRows name "SELECT * FROM orders WHERE total < 0"⟩

/-- A table of orders with this query. -/
def negativesConfiguration (name : String) : ScanConfiguration :=
  { ScanConfiguration.ofTable "orders" with sqlMetrics := [(negativesQuery name).metric] }

/-- The draft of its plan. -/
def negativesDraft (name : String) : Draft :=
  ⟨.postgreSQL, 0, negativesConfiguration name, tallyColumns,
    .withFilter (Warehouse.postgreSQL.qualifyTable "orders") none⟩

/-- It is the plan of its configuration. -/
theorem plan_negativesConfiguration (name : String) :
    (negativesConfiguration name).plan .postgreSQL 0 tallyColumns =
      .ok (negativesDraft name).plan :=
  ScanConfiguration.plan_eq_ok_iff.mpr ⟨rfl, _, rfl, rfl⟩

/-- If the test of the query is compiled, it is the only one in the plan, and there is no issue. -/
private theorem plan_negativesDraft {name : String} {t : CompiledTest}
    (h : TestScope.compileOne
      ((negativesQuery name).scope "orders" [(negativesQuery name).binding name none] none)
      [.ofTable name] 0 (name ++ " == 0") = .ok t) :
    (negativesDraft name).plan.tests = [t] ∧ (negativesDraft name).plan.issues = [] := by
  let d := negativesQuery name
  let f := d.countForm name
  have hmeasured : (negativesDraft name).measured = [] := Draft.measured_of_nothing rfl rfl rfl
  have hplanned := @Draft.planned_of_nothing (negativesDraft name) rfl rfl rfl
  have hcustoms : (negativesDraft name).customs =
      [⟨[], some (d.groupOf f), some (d.testsOf "orders" f)⟩] := by
    have hsql : Text.isBlank "SELECT * FROM orders WHERE total < 0" = false := by decide
    rw [Draft.customs, Draft.declared, hmeasured, hplanned]
    change [d.plan "orders" []] = _
    unfold DeclaredMetric.plan
    rw [show d.metric.sql = "SELECT * FROM orders WHERE total < 0" from rfl, hsql]
    rfl
  have hcompiled : (negativesDraft name).compiled = [.ok t] := by
    rw [Draft.compiled, Draft.tests, Draft.requests, Draft.customKeys, hcustoms, hmeasured,
      hplanned]
    change [TestScope.compileOne _ [.ofTable name] 0 (name ++ " == 0")] = _
    exact congrArg (fun c ↦ [c]) h
  refine ⟨by rw [Draft.plan_tests, hcompiled]; rfl, ?_⟩
  rw [Draft.plan_issues, hcompiled, hcustoms, hplanned]
  rfl

/-- The test of negative totals fails if there is one. -/
theorem negativesConfiguration_countsRows :
    let d := negativesQuery "negatives"
    let p := (negativesDraft "negatives").plan
    (negativesConfiguration "negatives").plan .postgreSQL 0 tallyColumns = .ok p ∧
      d ∈ (negativesConfiguration "negatives").customQueries tallyColumns ∧ p.Accepts d ∧
      (∀ name ∈ d.metric.name, p.AcceptsTest (name ++ " == 0")) ∧
      ∃ result, ((Scan.ofConfiguration .postgreSQL (negativesConfiguration "negatives")).execute
          tallySession p).2 = .ok result ∧ ∃ res ∈ result.tests, res.outcome = .failed := by
  intro d p
  have hspells : Token.Spells "negatives".toList (.identifier "negatives") :=
    Token.spells_identifier_iff.mpr
      ⟨⟨'n', "egatives".toList, by decide, by decide⟩, rfl⟩
  have hcompiled : ∃ t, (d.scope "orders" [d.binding "negatives" none] none).compileOne
      [.ofTable "negatives"] 0 ("negatives" ++ " == 0") = .ok t := by
    rw [TestScope.compileOne, TestExpression.parse, Expr.parse_append_zero hspells]
    exact ⟨_, rfl⟩
  obtain ⟨t, ht⟩ := hcompiled
  have hissues : p.issues = [] := (plan_negativesDraft ht).2
  have hplan := plan_negativesConfiguration "negatives"
  have hd : d ∈ (negativesConfiguration "negatives").customQueries tallyColumns := .head _
  have haccepted : p.Accepts d := Plan.accepts_of_issues hissues d
  have htest : ∀ name ∈ d.metric.name, p.AcceptsTest (name ++ " == 0") :=
    fun name _ ↦ Plan.acceptsTest_of_issues hissues (name ++ " == 0")
  obtain ⟨name, g, t, hname, ⟨hg, -, hquery, -, -⟩, -, hcounts⟩ :=
    ScanConfiguration.countsRows_iff_isWord hplan hd rfl haccepted htest
  obtain rfl : "negatives" = name := Option.some.inj hname
  let scan := Scan.ofConfiguration .postgreSQL (negativesConfiguration "negatives")
  obtain ⟨res, hres, -, hrows⟩ := hcounts.mpr
    ⟨Token.spells_identifier_iff.mp hspells, by decide, by decide⟩ scan _ _
    (scan.reports_chosen p (tallyTurns scan.dialect))
  exact ⟨hplan, hd, haccepted, htest, _, execute_tallySession rfl p, res, hres,
    hrows.failed.mpr ⟨_, Draft.mem_timings_ofAnswers scan hg hquery rfl, rfl, rfl, Nat.one_pos⟩⟩

/-- The test that comes with a query named `0`. -/
def CompiledTest.constant : CompiledTest where
  id := "orders.sql_metrics[0]#0"
  title := "orders.sql_metrics[0] 0 == 0"
  column := none
  expression := ⟨"0 == 0", .binary (.comparison .eq) (.number 0) (.number 0)⟩
  bindings := .ofList []
  grouped := none

/-- The name `0` is read as a number. -/
private theorem compileOne_constant :
    ((negativesQuery "0").scope "orders" [(negativesQuery "0").binding "0" none] none).compileOne
      [.ofTable "0"] 0 ("0" ++ " == 0") = .ok .constant := by
  let d : ParseTree (.chain .comparison) :=
    .chain (.ofAtom (.number 0)) (.cons (.comparison .eq) rfl (.ofAtom (.number 0)) .nil)
  have hcuts : Token.Cuts "0 == 0".toList d.tokens [] :=
    (Token.Cuts.zero (.space _)).trans <| .space (by decide) <|
      (Token.Cuts.comparison .eq _).trans <| .space (by decide) (.zero .nil)
  have hread : Expr.parse "0 == 0" = .ok CompiledTest.constant.expression.tree :=
    Expr.parse_eq_ok d hcuts (by decide) (by decide)
  rw [show "0" ++ " == 0" = "0 == 0" by decide, TestScope.compileOne, TestExpression.parse,
    hread]
  rfl

/-- A query named `0` has no issue, and neither has its test. Still the test passes if the query
comes back with a row. -/
theorem negativesConfiguration_ignores_rows :
    let p := (negativesDraft "0").plan
    (negativesConfiguration "0").error? = none ∧
      (negativesConfiguration "0").plan .postgreSQL 0 tallyColumns = .ok p ∧ p.issues = [] ∧
      p.tests = [.constant] ∧
      ∃ result, ((Scan.ofConfiguration .postgreSQL (negativesConfiguration "0")).execute
          tallySession p).2 = .ok result ∧
        (∃ res, result.tests = [res] ∧ res.outcome = .passed) ∧
        ∃ q ∈ result.timings, q.succeeded = true ∧ q.rowCount = 1 := by
  intro p
  obtain ⟨htests, hissues⟩ := plan_negativesDraft compileOne_constant
  have hd : negativesQuery "0" ∈ (negativesDraft "0").declared := by
    rw [Draft.declared_eq]
    exact .head _
  obtain ⟨f, hf, ⟨g, hg, hspec⟩, -⟩ :=
    Draft.exists_of_accepts hd (Plan.accepts_of_issues hissues _)
  have hquery : g.query = .sql "SELECT * FROM orders WHERE total < 0" := by
    rw [hspec]
    rfl
  let scan := Scan.ofConfiguration .postgreSQL (negativesConfiguration "0")
  refine ⟨by decide, plan_negativesConfiguration "0", hissues, htests, _,
    execute_tallySession rfl p, ?_, _, Draft.mem_timings_ofAnswers scan hg hquery rfl, rfl, rfl⟩
  change ∃ res, p.tests.flatMap _ = [res] ∧ _
  rw [htests, List.flatMap_cons, List.flatMap_nil, List.append_nil]
  refine ⟨_, rfl, ?_⟩
  decide

end DataQuality
