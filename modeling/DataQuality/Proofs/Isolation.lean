import DataQuality.Proofs.Drafts
import DataQuality.Proofs.Runs

/-!
# Isolation of failures

Two scans of a plan in which all groups but one receive the same answers. What they report differs
only where that group has a hand in it: in what it measures, in the histograms that wait for bounds
it measures, and in what is derived from these.
-/

namespace DataQuality

/-! ### Turns in the run that they belong to -/

namespace Run

/-- The queries asked before the turn of a group. -/
def askedBefore (r : Run) (id : Nat) : List String :=
  r.before ++ (r.turns.takeWhile fun t ↦ t.outcome.id ≠ id).flatMap Turn.asked

/-- The query asked in the turn of a group, if there was one. -/
def query? (r : Run) (id : Nat) : Option String :=
  (r.turns.find? fun t ↦ t.outcome.id = id).bind fun t ↦ t.outcome.asked.map AskedQuery.sql

/-- If groups differ in their ids, the query of a turn is found by its id. -/
theorem query?_of_mem {r : Run} (hids : (r.turns.map fun t ↦ t.outcome.id).Nodup) {t : Turn}
    (ht : t ∈ r.turns) : r.query? t.outcome.id = t.outcome.asked.map AskedQuery.sql := by
  unfold query?
  rw [find?_key_of_mem hids ht, Option.bind_some]

variable {s : Session} {w : Warehouse} {measured : MeasurementSet}

/-- Every turn of a phase follows the queries that the whole run asked before it. -/
theorem allTurns_eq_map {r : Run} {earlier later : List Turn} {asked : List String}
    {gs : List QueryGroup}
    (hturns : r.turns = earlier ++ s.allTurns w measured asked gs ++ later)
    (hasked : asked = r.before ++ earlier.flatMap Turn.asked)
    (hids : (r.turns.map fun t ↦ t.outcome.id).Nodup) :
    s.allTurns w measured asked gs =
      gs.map fun g ↦ s.turn w measured (r.askedBefore g.id) g := by
  induction gs generalizing earlier asked with
  | nil => rfl
  | cons g rest ih =>
    rw [Session.allTurns] at hturns ⊢
    have hfirst : r.askedBefore g.id = asked := by
      unfold askedBefore
      rw [hasked, hturns, List.append_assoc, List.takeWhile_append_of_pos]
      · rw [List.cons_append, List.takeWhile_cons]
        simp
      · intro t ht
        rw [hturns, List.append_assoc, List.map_append, List.nodup_append] at hids
        have hne := hids.2.2 _ (List.mem_map_of_mem ht) g.id (by simp)
        simpa using hne
    rw [List.map_cons, hfirst]
    refine congrArg _ (@ih (earlier ++ [s.turn w measured asked g]) _ ?_ ?_)
    · rw [hturns]
      simp
    · rw [hasked]
      simp

end Run

/-! ### What a group has a hand in -/

/-- The keys that a group measures, and those of the histograms that wait for bounds it measures. -/
def Plan.Spoiled (p : Plan) (g : QueryGroup) (key : MetricKey) : Prop :=
  key ∈ g.keys ∨ ∃ h ∈ p.groups, ∃ q, h.query = .histogram q ∧
    (q.min ∈ g.keys ∨ q.max ∈ g.keys) ∧ key ∈ h.keys

/-- The keys whose measurements a group has a hand in, through any number of derivations. -/
inductive Plan.Affected (p : Plan) (g : QueryGroup) : MetricKey → Prop
  | measured {key : MetricKey} : p.Spoiled g key → p.Affected g key
  | derived {d : DerivedMetric} {key : MetricKey} :
      d ∈ p.derived → key ∈ d.reads → p.Affected g key → p.Affected g d.key

/-- All groups but one receive the same answers in two runs: each is skipped in both or in neither,
and is answered alike if it asks the same in both. -/
structure SameAnswers (p : Plan) (g : QueryGroup) (s s' : Session) (r r' : Run) : Prop where
  cancelled : ∀ h ∈ p.groups, h ≠ g →
    s.isCancelled (r.askedBefore h.id) = s'.isCancelled (r'.askedBefore h.id)
  answers : ∀ h ∈ p.groups, h ≠ g → ∀ sql,
    r.query? h.id = some sql → r'.query? h.id = some sql →
      s.answer (r.askedBefore h.id) sql = s'.answer (r'.askedBefore h.id) sql

section

variable {s s' : Session} {w : Warehouse} {measured measured' : MeasurementSet}
  {asked asked' : List String}

/-- Turns of a group whose keys are all given up are alike. -/
theorem alike_turn_of_except {except : MetricKey → Prop} {h : QueryGroup}
    (hexcept : ∀ key ∈ h.keys, except key) :
    List.Forall₂ (Measurement.Alike except) (s.turn w measured asked h).outcome.measurements
      (s'.turn w measured' asked' h).outcome.measurements := by
  obtain ⟨reading, hms⟩ := Session.measurements_turn (s := s) (w := w) asked h
  obtain ⟨reading', hms'⟩ := Session.measurements_turn (s := s') (w := w) asked' h
  rw [hms, hms', List.forall₂_map_left_iff, List.forall₂_map_right_iff, List.forall₂_same]
  intro b hb
  refine ⟨rfl, rfl, ?_⟩
  intro hkept
  exact absurd (hexcept _ (List.mem_map_of_mem hb)) hkept

/-- The bounds that a histogram waits for are the same. -/
def SameBounds (measured measured' : MeasurementSet) (h : QueryGroup) : Prop :=
  ∀ q, h.query = .histogram q → measured.get? q.min = measured'.get? q.min ∧
    measured.get? q.max = measured'.get? q.max

/-- A group with the same bounds takes the same step. -/
theorem step_eq_of_sameBounds {h : QueryGroup} (hbounds : SameBounds measured measured' h) :
    h.step w measured = h.step w measured' := by
  unfold GroupSpec.step
  cases hquery : h.query with
  | sql text => rfl
  | histogram q =>
    obtain ⟨hmin, hmax⟩ := hbounds q hquery
    have heq : q.bounds measured = q.bounds measured' := by
      unfold HistogramQuery.bounds MeasurementSet.available MeasurementSet.value?
      rw [hmin, hmax]
    dsimp only
    rw [heq]

/-- A group measures the same in two turns if it is skipped in both or in neither, has the same
bounds, and is answered alike if it asks the same. -/
theorem turn_eq_of_sameBounds {h : QueryGroup} (hbounds : SameBounds measured measured' h)
    (hcancelled : s.isCancelled asked = s'.isCancelled asked')
    (hanswers : ∀ sql,
      (s.turn w measured asked h).outcome.asked.map AskedQuery.sql = some sql →
      (s'.turn w measured' asked' h).outcome.asked.map AskedQuery.sql = some sql →
      s.answer asked sql = s'.answer asked' sql) :
    s.turn w measured asked h = s'.turn w measured' asked' h := by
  unfold Session.turn at hanswers ⊢
  rw [← hcancelled] at hanswers ⊢
  split
  · rfl
  · next hrunning =>
    rw [if_neg hrunning, if_neg hrunning] at hanswers
    unfold QueryGroup.run at hanswers ⊢
    rw [← step_eq_of_sameBounds hbounds] at hanswers ⊢
    cases hstep : h.step w measured with
    | settle reading => rfl
    | ask sql range =>
      have hsql : ∀ answer, (h.answered sql range answer).asked.map AskedQuery.sql = some sql := by
        intro answer
        cases answer <;> rfl
      simp only [hstep] at hanswers ⊢
      rw [hanswers sql (hsql _) (hsql _)]

end

/-! ### Phases -/

/-- What a phase of a run came to, seen from the end of the run. -/
private theorem turns_of_phase {s : Session} {w : Warehouse} {r : Run} {gs : List QueryGroup}
    {later : List Turn}
    (hids : (((r.takeAll s w gs).take later).turns.map fun t ↦ t.outcome.id).Nodup) :
    s.allTurns w r.ledger.measurements r.asked gs = gs.map (fun h ↦ s.turn w r.ledger.measurements
        (((r.takeAll s w gs).take later).askedBefore h.id) h) ∧
      ∀ h ∈ gs, ((r.takeAll s w gs).take later).query? h.id =
        (s.turn w r.ledger.measurements (((r.takeAll s w gs).take later).askedBefore h.id)
          h).outcome.asked.map AskedQuery.sql := by
  have hmap := Run.allTurns_eq_map (r := (r.takeAll s w gs).take later) rfl rfl hids
  refine ⟨hmap, ?_⟩
  intro h hh
  have hmem : s.turn w r.ledger.measurements
      (((r.takeAll s w gs).take later).askedBefore h.id) h ∈
        ((r.takeAll s w gs).take later).turns := by
    apply List.mem_append_left
    apply List.mem_append_right
    rw [hmap]
    exact List.mem_map_of_mem hh
  rw [← Run.query?_of_mem hids hmem, Session.id_turn]

/-- Ledgers stay alike through a phase, if what a group measures is given up, and what others
measure too unless they have the same bounds. -/
private theorem alike_takeAll {p : Plan} {g : QueryGroup} {s s' : Session} {w : Warehouse}
    {r r' R R' : Run} {gs : List QueryGroup} {except : MetricKey → Prop}
    (hsame : SameAnswers p g s s' R R')
    (hR : ∃ later, R = (r.takeAll s w gs).take later)
    (hR' : ∃ later, R' = (r'.takeAll s' w gs).take later)
    (hids : (R.turns.map fun t ↦ t.outcome.id).Nodup)
    (hids' : (R'.turns.map fun t ↦ t.outcome.id).Nodup)
    (hgs : ∀ h ∈ gs, h ∈ p.groups) (hg : ∀ key ∈ g.keys, except key)
    (hbounds : ∀ h ∈ gs, SameBounds r.ledger.measurements r'.ledger.measurements h ∨
      ∀ key ∈ h.keys, except key)
    (halike : Ledger.Alike except r.ledger r'.ledger) :
    Ledger.Alike except (r.takeAll s w gs).ledger (r'.takeAll s' w gs).ledger := by
  obtain ⟨later, rfl⟩ := hR
  obtain ⟨later', rfl⟩ := hR'
  obtain ⟨hturns, hquery⟩ := turns_of_phase hids
  obtain ⟨hturns', hquery'⟩ := turns_of_phase hids'
  change Ledger.Alike except (r.ledger.recordAll _) (r'.ledger.recordAll _)
  apply halike.recordAll
  rw [hturns, hturns', List.flatMap_map, List.flatMap_map]
  apply forall₂_flatMap
  intro h hh
  by_cases heq : h = g
  · rw [heq]
    exact alike_turn_of_except hg
  · rcases hbounds h hh with hsteps | hexcept
    · have hturn := turn_eq_of_sameBounds (w := w) hsteps (hsame.cancelled h (hgs h hh) heq) ?_
      · rw [hturn]
        exact List.forall₂_same.mpr fun m _ ↦ Measurement.Alike.refl m
      · intro sql hasked hasked'
        rw [← hquery h hh] at hasked
        rw [← hquery' h hh] at hasked'
        exact hsame.answers h (hgs h hh) heq sql hasked hasked'
    · exact alike_turn_of_except hexcept

/-- Whatever a group is answered, and be it that its query fails, two runs of a plan record the same
except for keys that the group has a hand in. -/
theorem Draft.alike_runPlan {d : Draft} {g : QueryGroup} {s s' : Session} {scan : Scan}
    (hsame : SameAnswers d.plan g s s' (scan.runPlan s d.plan) (scan.runPlan s' d.plan))
    (hlost : (scan.runPlan s d.plan).lost? = none)
    (hlost' : (scan.runPlan s' d.plan).lost? = none) :
    Ledger.Alike (d.plan.Affected g) ((scan.runPlan s d.plan).ledger.derive d.plan.derived)
      ((scan.runPlan s' d.plan).ledger.derive d.plan.derived) := by
  let start := Run.start scan.asked
    [⟨.ofTable schemaMetric, .measured (.schema d.plan.columns), false⟩]
  have hids : ∀ s : Session, ((start.takePhases s scan.dialect d.plan Phase.all).turns.map
      fun t ↦ t.outcome.id).Nodup := by
    intro s
    obtain ⟨ts, hrun, hids, _⟩ := Run.exists_takePhases s scan.dialect d.plan start Phase.all
    rw [hrun]
    change (ts.map fun t ↦ t.outcome.id).Nodup
    rw [hids, Draft.flatMap_groupsIn, Draft.plan_groups]
    exact nodup_id_numberGroups 0 _
  have hmem : ∀ phase, ∀ h ∈ d.plan.groupsIn phase, h ∈ d.plan.groups :=
    fun phase h hh ↦ List.mem_of_mem_filter hh
  have hphase : ∀ phase, ∀ h ∈ d.plan.groupsIn phase, h.phase = phase := by
    intro phase h hh
    simpa using (List.mem_filter.mp hh).2
  -- Outside the second phase no group waits for bounds.
  have hknown : ∀ phase, phase ≠ .distribution → ∀ h ∈ d.plan.groupsIn phase,
      ∀ measured measured', SameBounds measured measured' h := by
    intro phase hne h hh measured measured' q hq
    have hdistribution := Draft.phase_of_histogram (hmem phase h hh) hq
    exact absurd ((hphase phase h hh).symm.trans hdistribution) hne
  rw [Scan.runPlan_of_lost? hlost, Scan.runPlan_of_lost? hlost'] at hsame ⊢
  let r₁ := start.takeAll s scan.dialect (d.plan.groupsIn .aggregate)
  let r₁' := start.takeAll s' scan.dialect (d.plan.groupsIn .aggregate)
  let r₂ := r₁.takeAll s scan.dialect (d.plan.groupsIn .distribution)
  let r₂' := r₁'.takeAll s' scan.dialect (d.plan.groupsIn .distribution)
  have haggregate : Ledger.Alike (· ∈ g.keys) r₁.ledger r₁'.ledger := by
    refine alike_takeAll hsame ⟨_, Run.take_take _ _ _⟩ ⟨_, Run.take_take _ _ _⟩ (hids s) (hids s')
      (hmem _) (fun _ hk ↦ hk) ?_ (Ledger.Alike.refl _)
    intro h hh
    exact .inl (hknown .aggregate (by decide) h hh _ _)
  have hdistribution : Ledger.Alike (d.plan.Spoiled g) r₂.ledger r₂'.ledger := by
    refine alike_takeAll hsame ⟨_, rfl⟩ ⟨_, rfl⟩ (hids s) (hids s') (hmem _)
      (fun _ hk ↦ .inl hk) ?_ (haggregate.mono fun _ hk ↦ .inl hk)
    intro h hh
    by_cases hbounds : ∃ q, h.query = .histogram q ∧ (q.min ∈ g.keys ∨ q.max ∈ g.keys)
    · obtain ⟨q, hq, hspoiled⟩ := hbounds
      exact .inr fun key hkey ↦ .inr ⟨h, hmem _ h hh, q, hq, hspoiled, hkey⟩
    · left
      intro q hq
      refine ⟨haggregate.get?_eq ?_, haggregate.get?_eq ?_⟩
      · exact fun hmin ↦ hbounds ⟨q, hq, .inl hmin⟩
      · exact fun hmax ↦ hbounds ⟨q, hq, .inr hmax⟩
  have hcustom : Ledger.Alike (d.plan.Spoiled g)
      (start.takePhases s scan.dialect d.plan Phase.all).ledger
      (start.takePhases s' scan.dialect d.plan Phase.all).ledger := by
    change Ledger.Alike (d.plan.Spoiled g)
      (r₂.takeAll s scan.dialect (d.plan.groupsIn .custom)).ledger
      (r₂'.takeAll s' scan.dialect (d.plan.groupsIn .custom)).ledger
    refine alike_takeAll hsame ⟨[], (Run.take_nil _).symm⟩ ⟨[], (Run.take_nil _).symm⟩ (hids s)
      (hids s') (hmem _) (fun _ hk ↦ .inl hk) ?_ hdistribution
    intro h hh
    exact .inl (hknown .custom (by decide) h hh _ _)
  refine (hcustom.mono fun _ hk ↦ .measured hk).derive ?_
  intro d hd key hkey haffected
  exact .derived hd hkey haffected

/-! ### Reports -/

/-- The keys of the measurements that a test looks at. -/
def CompiledTest.reads (t : CompiledTest) : List MetricKey :=
  match t.grouped with
  | some key => [key]
  | none => t.bindings.entries.map Prod.snd

/-- A test has the same results on measurements that agree on what it looks at. -/
theorem CompiledTest.evaluate_congr {t : CompiledTest} {ms ms' : MeasurementSet}
    (h : ∀ key ∈ t.reads, ms.get? key = ms'.get? key) : t.evaluate ms = t.evaluate ms' := by
  unfold evaluate
  unfold reads at h
  cases hgrouped : t.grouped with
  | some key =>
    rw [hgrouped] at h
    have hkey := h key (List.mem_singleton_self key)
    dsimp only
    unfold evaluateGroups
    rw [hkey]
  | none =>
    rw [hgrouped] at h
    have hbound : (t.bindings.entries.map fun b ↦ BoundName.ofMeasurement ms b.1 b.2) =
        t.bindings.entries.map fun b ↦ BoundName.ofMeasurement ms' b.1 b.2 := by
      refine List.map_congr_left ?_
      intro b hb
      unfold BoundName.ofMeasurement
      rw [h b.2 (List.mem_map_of_mem hb)]
    dsimp only
    rw [hbound]

/-- Whatever a group is answered, two scans in which all others receive the same answers report the
same measurements except for keys that the group has a hand in, and have the same results of every
test that looks at no such key. -/
theorem Scan.isolates_failures {scan : Scan} {columns : List TableColumn} {p : Plan}
    {g : QueryGroup} {s s' : Session} {result result' : ScanResult}
    (hplan : scan.plan columns = .ok p)
    (hsame : SameAnswers p g s s' (scan.runPlan s p) (scan.runPlan s' p))
    (hresult : (scan.runColumns s columns).2 = .ok result)
    (hresult' : (scan.runColumns s' columns).2 = .ok result') :
    List.Forall₂ (Measurement.Alike (p.Affected g)) result.measurements result'.measurements ∧
      ∃ ms ms' : MeasurementSet,
        result.measurements = ms.entries.filter (fun m ↦ !m.internal) ∧
        result'.measurements = ms'.entries.filter (fun m ↦ !m.internal) ∧
        result.tests = p.tests.flatMap (fun t ↦ t.evaluate ms) ∧
        result'.tests = p.tests.flatMap (fun t ↦ t.evaluate ms') ∧
        ∀ t ∈ p.tests, (∀ key ∈ t.reads, ¬ p.Affected g key) → t.evaluate ms = t.evaluate ms' := by
  unfold Scan.runColumns at hresult hresult'
  rw [hplan] at hresult hresult'
  obtain ⟨hlost, rfl⟩ := Scan.of_execute hresult
  obtain ⟨hlost', rfl⟩ := Scan.of_execute hresult'
  obtain ⟨_, source, _, rfl⟩ := ScanConfiguration.plan_eq_ok_iff.mp
    (Scan.plan_eq_ok_iff.mp hplan).2
  have halike := Draft.alike_runPlan hsame hlost hlost'
  refine ⟨?_, _, _, rfl, rfl, rfl, rfl, ?_⟩
  · refine List.rel_filter ?_ halike.entries
    intro m n hmn
    simp only [hmn.internal]
  · intro t _ hreads
    exact t.evaluate_congr fun key hkey ↦ halike.get?_eq (hreads key hkey)

/-- A scan of a table of orders with two custom queries, the second of which is tested. -/
def auditScan : Scan :=
  .ofConfiguration .postgreSQL
    { ScanConfiguration.ofTable "orders" with
      sqlMetrics := [{ SqlMetric.numeric "SELECT 4" with name := some "open" },
        { SqlMetric.numeric "SELECT 2" with name := some "closed", tests := ["closed > 1"] }] }

/-- The only column of the table of orders. -/
def auditColumns : List TableColumn := [⟨"id", "integer", false⟩]

/-- The plan of the scan. -/
def auditPlan : Plan :=
  assemblePlan 0 auditScan.config auditColumns
    (.withFilter (auditScan.dialect.qualifyTable "orders") none) ⟨[], []⟩
    (auditColumns.map fun c ↦ ⟨.ofColumn .postgreSQL c none, ⟨[], []⟩, [], [], [], [], []⟩)

/-- A session in which every query is answered, or every query but that of open orders. -/
def auditSession (broken : Bool) : Session where
  answer _ sql :=
    if broken && sql == "SELECT 4" then .error (.queryExecution "broken")
    else .ok ⟨["n"], [[.int 2]]⟩
  cancelAfter := none

/-- The failure of one custom query leaves alone what the other one measures and tests. -/
theorem auditScan_isolates_failures :
    auditScan.plan auditColumns = .ok auditPlan ∧
      ∃ g result result', auditPlan.groups.head? = some g ∧
        SameAnswers auditPlan g (auditSession false) (auditSession true)
          (auditScan.runPlan (auditSession false) auditPlan)
          (auditScan.runPlan (auditSession true) auditPlan) ∧
        (auditScan.runColumns (auditSession false) auditColumns).2 = .ok result ∧
        (auditScan.runColumns (auditSession true) auditColumns).2 = .ok result' ∧
        List.Forall₂ (Measurement.Alike (auditPlan.Affected g)) result.measurements
          result'.measurements ∧
        ∃ ms ms' : MeasurementSet,
          result.measurements = ms.entries.filter (fun m ↦ !m.internal) ∧
          result'.measurements = ms'.entries.filter (fun m ↦ !m.internal) ∧
          result.tests = auditPlan.tests.flatMap (fun t ↦ t.evaluate ms) ∧
          result'.tests = auditPlan.tests.flatMap (fun t ↦ t.evaluate ms') ∧
          ∀ t ∈ auditPlan.tests, (∀ key ∈ t.reads, ¬ auditPlan.Affected g key) →
            t.evaluate ms = t.evaluate ms' := by
  have hplan : auditScan.plan auditColumns = .ok auditPlan :=
    Scan.plan_eq_ok_iff.mpr ⟨by decide +kernel, ScanConfiguration.plan_of_nothing rfl rfl rfl rfl⟩
  have hresult : ∀ broken, ∃ result,
      (auditScan.runColumns (auditSession broken) auditColumns).2 = .ok result := by
    intro broken
    unfold Scan.runColumns
    rw [hplan]
    refine Scan.exists_result ?_ rfl
    intro asked sql e h
    unfold auditSession at h
    dsimp only at h
    split at h
    · cases h
      rfl
    · cases h
  obtain ⟨result, hwhole⟩ := hresult false
  obtain ⟨result', hbroken⟩ := hresult true
  obtain ⟨g, h, hgroups, hquery⟩ : ∃ g h, auditPlan.groups = [g, h] ∧
      (auditScan.runPlan (auditSession false) auditPlan).query? h.id = some "SELECT 2" :=
    ⟨⟨⟨.custom, "sql_metrics[0]", .sql "SELECT 4", .singleRow,
        [⟨.ofTable "open", "open", some 0, false⟩]⟩, 0⟩,
      ⟨⟨.custom, "sql_metrics[1]", .sql "SELECT 2", .singleRow,
        [⟨.ofTable "closed", "closed", none, false⟩]⟩, 1⟩, by decide +kernel, by decide +kernel⟩
  have hsame : SameAnswers auditPlan g (auditSession false) (auditSession true)
      (auditScan.runPlan (auditSession false) auditPlan)
      (auditScan.runPlan (auditSession true) auditPlan) := by
    refine ⟨fun _ _ _ ↦ rfl, ?_⟩
    intro k hk hne sql hsql _
    rw [hgroups, List.mem_cons, List.mem_singleton] at hk
    obtain rfl := hk.resolve_left hne
    rw [hquery, Option.some.injEq] at hsql
    rw [← hsql]
    rfl
  exact ⟨hplan, g, result, result', by rw [hgroups]; rfl, hsame, hwhole, hbroken,
    Scan.isolates_failures hplan hsame hwhole hbroken⟩

end DataQuality
