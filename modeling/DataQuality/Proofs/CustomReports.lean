import DataQuality.Proofs.Clashes
import DataQuality.Proofs.PhaseOrder
import DataQuality.Proofs.ReportedKeys

/-!
# What is reported of custom queries

A custom query that is planned without an issue is a group of its own with all of its outputs. Its
keys are written by nobody else, apart from the number of rows and the columns of the table, so what
a scan records for one of them is what the turn of the group came to, and the list of queries tells
how this turn ended.
-/

namespace DataQuality

/-! ### Queries without issues -/

/-- No issue of the plan is about the custom query. -/
def Plan.Accepts (p : Plan) (m : DeclaredMetric) : Prop :=
  ∀ i ∈ p.issues, i.kind = .invalidSqlMetric → i.subject ≠ m.label

/-- A plan without issues has none about a query. -/
theorem Plan.accepts_of_issues {p : Plan} (h : p.issues = []) (m : DeclaredMetric) :
    p.Accepts m := by
  intro i hi
  rw [h] at hi
  cases hi

namespace DeclaredMetric

/-- The group that a query is planned as with a form of which nothing is left out. -/
def groupOf (m : DeclaredMetric) (f : CustomForm) : GroupSpec :=
  ⟨.custom, m.label, .sql m.metric.sql, f.shape, f.bindings⟩

/-- The tests of a query that is planned with a form of which nothing is left out. -/
def testsOf (m : DeclaredMetric) (table : String) (f : CustomForm) : DeclaredTests :=
  ⟨m.scope table f.bindings f.grouped, f.tests⟩

/-- Every issue that planning a query comes to is about the query. -/
theorem of_mem_issues_plan {m : DeclaredMetric} {table : String} {known : List MetricKey}
    {i : Issue} (h : i ∈ (m.plan table known).issues) :
    i.kind = .invalidSqlMetric ∧ i.subject = m.label := by
  unfold plan at h
  split at h
  · obtain rfl := List.mem_singleton.mp h
    exact ⟨rfl, rfl⟩
  · split at h
    · unfold planForm at h
      dsimp only at h
      split at h
      · obtain h | h := List.mem_append.mp h
        · obtain ⟨b, -, rfl⟩ := List.mem_map.mp h
          exact ⟨rfl, rfl⟩
        · obtain rfl := List.mem_singleton.mp h
          exact ⟨rfl, rfl⟩
      · obtain ⟨b, -, rfl⟩ := List.mem_map.mp h
        exact ⟨rfl, rfl⟩
    · obtain rfl := List.mem_singleton.mp h
      exact ⟨rfl, rfl⟩

/-- A query without issues is planned with everything that its form asks for. -/
theorem plan_of_issues {m : DeclaredMetric} {table : String} {known : List MetricKey}
    (h : (m.plan table known).issues = []) :
    ∃ f, m.form? = some f ∧
      m.plan table known = ⟨[], some (m.groupOf f), some (m.testsOf table f)⟩ := by
  unfold plan at h ⊢
  split at h
  · cases h
  · next hsql =>
    rw [if_neg hsql]
    split at h
    · next f hf =>
      refine ⟨f, hf, ?_⟩
      unfold planForm at h ⊢
      dsimp only at h ⊢
      split at h
      · simp at h
      · next hsome =>
        rw [if_neg hsome]
        have hclashes := List.map_eq_nil_iff.mp h
        have hall : f.bindings.filter (fun b ↦ !known.contains b.key) = f.bindings := by
          rw [List.filter_eq_self]
          intro b hb
          simpa using List.filter_eq_nil_iff.mp hclashes b hb
        rw [hclashes, hall]
        rfl
    · cases h

end DeclaredMetric

namespace Draft

variable {d : Draft}

/-- A query that no issue is about has its group in the plan, and its tests are compiled. -/
theorem exists_of_accepts {m : DeclaredMetric} (hm : m ∈ d.declared) (h : d.plan.Accepts m) :
    ∃ f, m.form? = some f ∧ (∃ g ∈ d.plan.groups, g.toGroupSpec = m.groupOf f) ∧
      m.testsOf d.config.tableName f ∈ d.tests := by
  obtain ⟨others, hplanned⟩ := exists_mem_planCustom hm
  have hnone : (m.plan d.config.tableName others).issues = [] := by
    rw [List.eq_nil_iff_forall_not_mem]
    intro i hi
    obtain ⟨hkind, hsubject⟩ := DeclaredMetric.of_mem_issues_plan hi
    refine h i ?_ hkind hsubject
    rw [plan_issues]
    refine List.mem_append_left _ (mem_mergeIssues.mpr (List.mem_append_right _ ?_))
    exact List.mem_flatMap.mpr ⟨_, hplanned, hi⟩
  obtain ⟨f, hf, hplan⟩ := DeclaredMetric.plan_of_issues hnone
  have hgroup : m.groupOf f ∈ d.customGroups :=
    List.mem_flatMap.mpr ⟨_, hplanned, by rw [hplan]; exact List.mem_singleton_self _⟩
  refine ⟨f, hf, ?_, ?_⟩
  · rw [plan_groups]
    exact exists_mem_numberGroups 0 (List.mem_append_right _ hgroup)
  · refine List.mem_append_right _ (List.mem_flatMap.mpr ⟨_, hplanned, ?_⟩)
    rw [hplan]
    exact List.mem_singleton_self _

/-! ### Keys of one group -/

/-- Nobody but its group binds a key of a custom query, or derives it, unless it is the number of
rows. -/
theorem exists_append_of_custom {g : QueryGroup} (hg : g ∈ d.plan.groups)
    (hphase : g.phase = .custom) {key : MetricKey} (hkey : key ∈ g.keys)
    (hrow : key ≠ .ofTable Metric.rowCount.name) :
    (∃ before after, d.plan.groups = before ++ g :: after ∧ ∀ h ∈ before ++ after, key ∉ h.keys) ∧
      key ∉ d.plan.derived.map DerivedMetric.key := by
  have hcustom : key ∈ d.customKeys := exists_custom_group_iff.mp ⟨g, hg, hphase, hkey⟩
  have habsent : key ∉ d.catalogEntries.map Prod.fst := by
    rw [mem_keys_catalogEntries]
    rintro (hmeasured | ⟨heq, -⟩)
    · exact not_measured_of_mem_customKeys hcustom hmeasured
    · exact hrow heq
  rw [catalogEntries, List.map_append, List.mem_append, not_or] at habsent
  have hcatalog : ∀ h ∈ d.catalogGroups, key ∉ h.keys := by
    intro h hh hmem
    refine habsent.1 ?_
    simp only [List.map_flatMap, GroupSpec.map_fst_entries]
    exact List.mem_flatMap.mpr ⟨h, hh, hmem⟩
  refine ⟨?_, by simpa [plan_derived, List.map_map] using habsent.2⟩
  rw [plan_groups, numberGroups_append] at hg ⊢
  obtain hg | hg := List.mem_append.mp hg
  · exact absurd hphase (phase_of_mem_catalogGroups (mem_of_mem_numberGroups hg))
  · obtain ⟨before, after, hsplit⟩ := List.append_of_mem hg
    have hapart := d.pairwise_disjoint_customGroups
    rw [← map_toGroupSpec_numberGroups (0 + d.catalogGroups.length) d.customGroups, hsplit,
      List.pairwise_map, List.pairwise_append, List.pairwise_cons] at hapart
    obtain ⟨-, ⟨hafter, -⟩, hbefore⟩ := hapart
    refine ⟨numberGroups 0 d.catalogGroups ++ before, after, by rw [hsplit, List.append_assoc], ?_⟩
    intro h hh hmem
    rw [List.append_assoc, List.mem_append, List.mem_append] at hh
    obtain hh | hh | hh := hh
    · exact hcatalog _ (mem_of_mem_numberGroups hh) hmem
    · exact hbefore h hh g (.head after) hmem hkey
    · exact hafter h hh hkey hmem

end Draft

/-! ### Turns of a group -/

/-- A turn measures the keys of its group. -/
theorem QueryGroup.TakesTurn.mem_keys {w : Warehouse} {measured : MeasurementSet} {g : QueryGroup}
    {t : Turn} (h : g.TakesTurn w measured t) {m : Measurement}
    (hm : m ∈ t.outcome.measurements) : m.key ∈ g.keys := by
  have hentry : m.entry ∈ g.entries := by
    rw [← h.map_entry]
    exact List.mem_map_of_mem hm
  rw [← g.map_fst_entries]
  exact List.mem_map_of_mem (f := Prod.fst) hentry

/-- A turn measures nothing for a key that its group does not bind. -/
theorem QueryGroup.TakesTurn.find?_eq_none {w : Warehouse} {measured : MeasurementSet}
    {g : QueryGroup} {t : Turn} (h : g.TakesTurn w measured t) {key : MetricKey}
    (hkey : key ∉ g.keys) : (t.outcome.measurements.find? fun m ↦ m.key = key) = none := by
  rw [List.find?_eq_none]
  intro m hm heq
  refine hkey ?_
  rw [← of_decide_eq_true heq]
  exact h.mem_keys hm

/-- Among what groups measure in their turns there is nothing for a key that none of them binds. -/
private theorem find?_measurements_eq_none {w : Warehouse} {gs : List QueryGroup} {ts : List Turn}
    (h : List.Forall₂ (fun g t ↦ ∃ measured, g.TakesTurn w measured t) gs ts) {key : MetricKey}
    (hkey : ∀ g ∈ gs, key ∉ g.keys) :
    (ts.flatMap fun t ↦ t.outcome.measurements).find? (fun m ↦ m.key = key) = none := by
  rw [List.find?_flatMap, List.findSome?_eq_none_iff]
  intro t ht
  obtain ⟨g, hg, measured, htakes⟩ := exists_of_mem_right h ht
  exact htakes.find?_eq_none (hkey g hg)

/-- The turn that a run gave a group of a plan, and what came of it for one of its keys: nothing
else is recorded for the key. -/
structure Run.Settles (r : Run) (w : Warehouse) (p : Plan) (g : QueryGroup) (t : Turn)
    (key : MetricKey) : Prop where
  mem : t ∈ r.turns
  takes : ∃ measured, g.TakesTurn w measured t
  only : ∀ u ∈ r.turns, u.outcome.id = g.id → u = t
  recorded : (r.ledger.derive p.derived).measurements.get? key =
    t.outcome.measurements.find? fun m ↦ m.key = key

/-- What a report records for a key of a custom query is what came of the turn of its group, unless
the key is the number of rows or the columns of the table. -/
theorem Scan.ReportsRun.exists_settles {d : Draft} {scan : Scan} {r : Run} {result : ScanResult}
    (h : scan.ReportsRun d.plan r result) {g : QueryGroup} (hg : g ∈ d.plan.groups)
    (hphase : g.phase = .custom) {key : MetricKey} (hkey : key ∈ g.keys)
    (hrow : key ≠ .ofTable Metric.rowCount.name) (hschema : key ≠ .ofTable schemaMetric) :
    ∃ t, r.Settles scan.dialect d.plan g t key := by
  obtain ⟨⟨before, after, hsplit, hothers⟩, hderived⟩ :=
    Draft.exists_append_of_custom hg hphase hkey hrow
  obtain ⟨hbefore, hafter⟩ := List.forall_mem_append.mp hothers
  obtain ⟨ts, rfl, hturns⟩ := h.run.exists_turns
  rw [Draft.flatMap_groupsIn, hsplit] at hturns
  have hids : (ts.map fun t ↦ t.outcome.id).Nodup := by
    have hsame : ts.map (fun t ↦ t.outcome.id) = d.plan.groups.map QueryGroup.id := by
      rw [hsplit, ← List.forall₂_eq_eq_eq, List.forall₂_map_left_iff, List.forall₂_map_right_iff]
      exact hturns.flip.imp fun _ _ ⟨_, hturn⟩ ↦ hturn.id
    rw [hsame, Draft.plan_groups]
    exact nodup_id_numberGroups _ _
  obtain ⟨earlier, t, later, rfl, hearlier, ⟨measured, htakes⟩, hlater⟩ :=
    exists_append_of_forall₂ hturns
  have hmem : t ∈ earlier ++ t :: later := List.mem_append_right _ (.head _)
  refine ⟨t, hmem, ⟨measured, htakes⟩, ?_, ?_⟩
  · intro u hu hid
    exact List.inj_on_of_nodup_map hids hu hmem (hid.trans htakes.id.symm)
  · have hbegun : (scan.begun d.plan).ledger.measurements.get? key = none := by
      rw [MeasurementSet.get?_eq_none_iff]
      exact fun hmem ↦ hschema (List.mem_singleton.mp hmem)
    have hlast : ((((scan.begun d.plan).take (earlier ++ t :: later)).ledger.derivations
        d.plan.derived).find? fun m ↦ m.key = key) = none := by
      rw [List.find?_eq_none]
      intro m hm heq
      refine hderived ?_
      rw [← Ledger.map_key_derivations, ← of_decide_eq_true heq]
      exact List.mem_map_of_mem hm
    rw [Ledger.derive_eq_recordAll, Ledger.get?_recordAll, hlast, Option.or_none]
    change ((scan.begun d.plan).ledger.recordAll _).measurements.get? key = _
    rw [Ledger.get?_recordAll, hbegun, Option.none_or, List.flatMap_append, List.flatMap_cons,
      List.find?_append, List.find?_append, find?_measurements_eq_none hearlier hbefore,
      find?_measurements_eq_none hlater hafter, Option.none_or, Option.or_none]

namespace Run.Settles

variable {r : Run} {w : Warehouse} {p : Plan} {g : QueryGroup} {t : Turn} {key : MetricKey}

/-- The list of queries has one for the group exactly if the group asked one in its turn. -/
theorem mem_timings_iff (h : r.Settles w p g t key) {q : QueryTiming} :
    q ∈ r.turns.filterMap (fun u ↦ u.outcome.timing?) ∧ q.groupId = g.id ↔
      t.outcome.timing? = some q := by
  have hid : ∀ {u : Turn}, u.outcome.timing? = some q → q.groupId = u.outcome.id := by
    intro u hu
    obtain ⟨asked, -, rfl⟩ := Option.map_eq_some_iff.mp hu
    rfl
  obtain ⟨measured, htakes⟩ := h.takes
  constructor
  · rintro ⟨hq, hgroup⟩
    obtain ⟨u, hu, htiming⟩ := List.mem_filterMap.mp hq
    rw [← h.only u hu ((hid htiming).symm.trans hgroup)]
    exact htiming
  · intro htiming
    exact ⟨List.mem_filterMap.mpr ⟨t, h.mem, htiming⟩, (hid htiming).trans htakes.id⟩

end Run.Settles

/-- A result has for a key what was recorded for it, unless that is internal. -/
theorem Scan.ReportsRun.measurement?_eq {scan : Scan} {p : Plan} {r : Run} {result : ScanResult}
    (h : scan.ReportsRun p r result) (key : MetricKey) :
    result.measurement? key =
      ((r.ledger.derive p.derived).measurements.get? key).filter fun m ↦ !m.internal := by
  rw [h.result]
  exact MeasurementSet.find?_filter _ _ key

/-- A group that binds keys once measures each of them from what its binding reads. -/
theorem GroupSpec.find?_measure {g : GroupSpec} (h : g.keys.Nodup) {b : Binding}
    (hb : b ∈ g.bindings) (rows : Rows) (range : Option BucketRange) :
    (g.measure rows range).find? (fun m ↦ m.key = b.key) =
      some (b.measure (rows.read g.shape range b)) := by
  have hkeys : ((g.measure rows range).map Measurement.key).Nodup := by
    unfold measure
    rw [List.map_map]
    exact h
  exact find?_key_of_mem hkeys (List.mem_map.mpr ⟨b, hb, rfl⟩)

/-- Of a custom group that binds keys once and is answered, the result has for a key what its
binding reads from the answer. -/
theorem Scan.ReportsRun.measurement?_of_answered {d : Draft} {scan : Scan} {r : Run}
    {result : ScanResult} (h : scan.ReportsRun d.plan r result) {g : QueryGroup}
    (hg : g ∈ d.plan.groups) (hphase : g.phase = .custom) (hnodup : g.keys.Nodup) {b : Binding}
    (hb : b ∈ g.bindings) (hrow : b.key ≠ .ofTable Metric.rowCount.name)
    (hschema : b.key ≠ .ofTable schemaMetric) {t : Turn} (ht : t ∈ r.turns) {sql : String}
    {range : Option BucketRange} {rows : Rows}
    (hanswered : t.outcome = g.answered sql range (.ok rows)) :
    result.measurement? b.key =
      (some (b.measure (rows.read g.shape range b))).filter fun m ↦ !m.internal := by
  have hkey : b.key ∈ g.keys := List.mem_map_of_mem hb
  obtain ⟨u, hu⟩ := h.exists_settles hg hphase hkey hrow hschema
  have hsame : t = u := hu.only t ht (by rw [hanswered]; rfl)
  rw [h.measurement?_eq, hu.recorded, ← hsame, hanswered]
  exact congrArg _ (GroupSpec.find?_measure hnodup hb rows range)

/-! ### Runs with given turns -/

/-- How groups may take their turns after the measurements of earlier phases. -/
structure TurnChoice (w : Warehouse) where
  turn : QueryGroup → MeasurementSet → Turn
  takes : ∀ (g : QueryGroup) measured, g.TakesTurn w measured (turn g measured)
  kept : ∀ g measured, (turn g measured).lost? = none

/-- A group whose query is known asks it. -/
theorem QueryGroup.run_of_sql {g : QueryGroup} {sql : String} (h : g.query = .sql sql)
    (w : Warehouse) (answer : String → Except ScanError Rows) (measured : MeasurementSet) :
    g.run w answer measured = g.answered sql none (answer sql) := by
  unfold run GroupSpec.step
  rw [h]

/-- Every group is run with answers of its own, none of which is that the connection is lost. -/
def TurnChoice.ofAnswers (w : Warehouse) (answer : QueryGroup → String → Except ScanError Rows)
    (hkept : ∀ g sql e, answer g sql = .error e → e.isConnectionError = false) : TurnChoice w where
  turn g measured := ⟨g.run w (answer g) measured, false⟩
  takes g _ := .ran (answer g)
  kept g measured := by
    unfold QueryGroup.run
    split
    · next sql range _ =>
      cases hanswer : answer g sql with
      | ok rows => rfl
      | error e =>
        change Option.filter ScanError.isConnectionError (some e) = none
        rw [Option.filter_some, hkept g sql e hanswer]
        rfl
    · rfl

namespace Run

variable {w : Warehouse} {p : Plan}

/-- The run of phases in which every group takes the turn that is chosen for it. -/
def takeChosen (c : TurnChoice w) (p : Plan) (r : Run) (phases : List Phase) : Run :=
  phases.foldl (fun r phase ↦
    r.take ((p.groupsIn phase).map fun g ↦ c.turn g r.ledger.measurements)) r

/-- Every group has its turn. -/
theorem completes_takeChosen (c : TurnChoice w) (r : Run) (phases : List Phase) :
    Completes w p r phases (r.takeChosen c p phases) := by
  induction phases generalizing r with
  | nil => exact .done r
  | cons phase rest ih =>
    refine .phase ?_ (ih _)
    rw [List.forall₂_map_right_iff, List.forall₂_same]
    exact fun g _ ↦ c.takes g _

/-- A run with chosen turns adds the one that is chosen for each group of its phases, in order. -/
theorem exists_takeChosen (c : TurnChoice w) (r : Run) (phases : List Phase) :
    ∃ ts, r.takeChosen c p phases = r.take ts ∧
      List.Forall₂ (fun g t ↦ ∃ measured, t = c.turn g measured) (phases.flatMap p.groupsIn)
        ts := by
  induction phases generalizing r with
  | nil => exact ⟨[], r.take_nil.symm, .nil⟩
  | cons phase rest ih =>
    let chosen := (p.groupsIn phase).map fun g ↦ c.turn g r.ledger.measurements
    obtain ⟨ts, hrun, hturns⟩ := ih (r.take chosen)
    refine ⟨chosen ++ ts, hrun.trans (take_take r chosen ts), List.rel_append ?_ hturns⟩
    rw [List.forall₂_map_right_iff, List.forall₂_same]
    exact fun g _ ↦ ⟨_, rfl⟩

end Run

/-- The run of a scan in which every group takes the turn that is chosen for it. -/
def Scan.chosenRun (scan : Scan) (p : Plan) (c : TurnChoice scan.dialect) : Run :=
  (scan.begun p).takeChosen c p Phase.all

/-- The result of a scan in which every group takes the turn that is chosen for it. -/
def Scan.chosenResult (scan : Scan) (p : Plan) (c : TurnChoice scan.dialect) : ScanResult :=
  scan.report p (scan.chosenRun p c) ((scan.chosenRun p c).ledger.derive p.derived)

/-- However turns are chosen, a scan may report on them. -/
theorem Scan.reports_chosen (scan : Scan) (p : Plan) (c : TurnChoice scan.dialect) :
    scan.ReportsRun p (scan.chosenRun p c) (scan.chosenResult p c) where
  run := Run.completes_takeChosen c _ _
  kept := by
    obtain ⟨ts, hrun, hturns⟩ := (scan.begun p).exists_takeChosen (p := p) c Phase.all
    unfold chosenRun Run.lost?
    rw [hrun]
    split
    · rfl
    · rw [List.findSome?_eq_none_iff]
      intro t ht
      obtain ⟨g, -, measured, rfl⟩ := exists_of_mem_right hturns ht
      exact c.kept g measured
  result := rfl

/-- With a warehouse that answers a query alike, to run a plan is to give every group its answer. -/
theorem Scan.execute_ofAnswers {answer : String → Except ScanError Rows}
    (hkept : ∀ sql e, answer sql = .error e → e.isConnectionError = false) {scan : Scan}
    (hfresh : scan.stage = .initialized) (p : Plan) :
    (scan.execute (.ofAnswers answer) p).2 =
      .ok (scan.chosenResult p
        (.ofAnswers scan.dialect (fun _ ↦ answer) fun _ sql e ↦ hkept sql e)) := by
  obtain ⟨result, hresult⟩ := exists_result (s := .ofAnswers answer) (p := p) (fun _ ↦ hkept) hfresh
  obtain ⟨hlost, hreport⟩ := of_execute hresult
  have hrun : scan.runPlan (.ofAnswers answer) p =
      scan.chosenRun p
        (.ofAnswers scan.dialect (fun _ ↦ answer) fun _ sql e ↦ hkept sql e) := by
    rw [runPlan_of_lost? hlost]
    unfold chosenRun Run.takePhases Run.takeChosen
    refine List.foldl_ext _ _ _ fun r phase _ ↦ ?_
    unfold Run.takeAll
    rw [Session.allTurns_ofAnswers]
    rfl
  rw [hresult, hreport, hrun]
  rfl

/-- Every group of a plan takes the turn that is chosen for it. -/
theorem Draft.exists_chosen_turn {d : Draft} (scan : Scan) (c : TurnChoice scan.dialect)
    {g : QueryGroup} (hg : g ∈ d.plan.groups) :
    ∃ measured, c.turn g measured ∈ (scan.chosenRun d.plan c).turns := by
  obtain ⟨ts, hrun, hturns⟩ := (scan.begun d.plan).exists_takeChosen (p := d.plan) c Phase.all
  rw [d.flatMap_groupsIn] at hturns
  obtain ⟨t, ht, measured, rfl⟩ := exists_of_mem_right hturns.flip hg
  refine ⟨measured, ?_⟩
  unfold Scan.chosenRun
  rw [hrun]
  exact List.mem_append_right _ ht

/-- The query of a group that is answered with rows is listed with their number. -/
theorem Draft.mem_timings_ofAnswers {d : Draft} (scan : Scan)
    {answer : QueryGroup → String → Except ScanError Rows}
    {hkept : ∀ g sql e, answer g sql = .error e → e.isConnectionError = false} {g : QueryGroup}
    (hg : g ∈ d.plan.groups) {sql : String} (hquery : g.query = .sql sql) {rows : Rows}
    (hanswer : answer g sql = .ok rows) :
    ⟨g.id, g.label, 0, rows.size, true⟩ ∈
      (scan.chosenResult d.plan (.ofAnswers scan.dialect answer hkept)).timings := by
  obtain ⟨measured, hturn⟩ :=
    Draft.exists_chosen_turn scan (.ofAnswers scan.dialect answer hkept) hg
  refine List.mem_filterMap.mpr ⟨_, hturn, ?_⟩
  change (g.run scan.dialect (answer g) measured).timing? = _
  rw [g.run_of_sql hquery, hanswer]
  rfl

/-- The turns in a tally: every query is answered with the same row. -/
def tallyTurns (w : Warehouse) : TurnChoice w :=
  .ofAnswers w (fun _ _ ↦ .ok ⟨["a", "b"], [[.int 4, .int 2]]⟩) fun _ _ _ h ↦ by cases h

/-- These turns make up what comes of a tally. -/
theorem execute_tallySession {scan : Scan} (hfresh : scan.stage = .initialized) (p : Plan) :
    (scan.execute tallySession p).2 = .ok (scan.chosenResult p (tallyTurns scan.dialect)) :=
  Scan.execute_ofAnswers (fun _ _ h ↦ by cases h) hfresh p

end DataQuality
