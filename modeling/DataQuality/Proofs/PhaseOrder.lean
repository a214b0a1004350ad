import DataQuality.Proofs.Isolation
import DataQuality.Proofs.Producers

/-!
# Order within a phase

The groups of a phase may take their turns in any order. None of them sees what another measures in
the same phase, and no two of them bind the same key, so whichever is recorded first, the same is
found for every key. Derivation and tests only look up keys.
-/

namespace DataQuality

/-! ### Groups of one phase -/

/-- No two groups for the same phase bind the same key. -/
def ApartInPhase (g h : GroupSpec) : Prop := g.phase = h.phase → g.keys.Disjoint h.keys

namespace Draft

variable {d : Draft}

private theorem apart_catalogGroups (h : d.Distinct) : d.catalogGroups.Pairwise ApartInPhase := by
  have hnodup := nodup_keys_catalogEntries h
  unfold catalogEntries at hnodup
  rw [List.map_append, List.map_flatMap] at hnodup
  simp only [GroupSpec.map_fst_entries] at hnodup
  refine (List.nodup_flatMap.mp hnodup.of_append_left).2.imp ?_
  intro g k hdisjoint _
  exact hdisjoint

/-- No two groups of a phase bind the same key. -/
theorem pairwise_disjoint_groupsIn (h : d.Distinct) (phase : Phase) :
    (d.plan.groupsIn phase).Pairwise fun g k ↦ g.keys.Disjoint k.keys := by
  have hcustom : d.customGroups.Pairwise ApartInPhase := by
    refine d.pairwise_disjoint_customGroups.imp ?_
    intro g k hdisjoint _
    exact hdisjoint
  have hspecs : (d.catalogGroups ++ d.customGroups).Pairwise ApartInPhase := by
    refine List.pairwise_append.mpr ⟨apart_catalogGroups h, hcustom, ?_⟩
    intro g hg k hk hphase
    rw [(phase_of_mem_customGroups hk).1] at hphase
    exact absurd hphase (phase_of_mem_catalogGroups hg)
  have hgroups : d.plan.groups.Pairwise fun g k ↦ ApartInPhase g.toGroupSpec k.toGroupSpec := by
    rw [← List.pairwise_map, plan_groups, map_toGroupSpec_numberGroups]
    exact hspecs
  refine (hgroups.filter _).imp_of_mem ?_
  intro g k hg hk hapart
  exact hapart ((Plan.mem_groupsIn_iff.mp hg).2.trans (Plan.mem_groupsIn_iff.mp hk).2.symm)

end Draft

/-! ### Answers that depend on the query only -/

/-- A session with a warehouse that answers a query alike whenever it is asked, in which the user
does not cancel. -/
def Session.ofAnswers (answer : String → Except ScanError Rows) : Session := ⟨fun _ ↦ answer, none⟩

section

variable {answer : String → Except ScanError Rows} {w : Warehouse}

/-- Every group is run in its turn, with the same answers. -/
theorem Session.allTurns_ofAnswers (measured : MeasurementSet) (asked : List String)
    (gs : List QueryGroup) :
    (Session.ofAnswers answer).allTurns w measured asked gs =
      gs.map fun g ↦ ⟨g.run w answer measured, false⟩ := by
  induction gs generalizing asked with
  | nil => rfl
  | cons g rest ih =>
    rw [allTurns, ih, List.map_cons]
    rfl

/-- A group measures alike after measurements in which the same is found. -/
theorem QueryGroup.run_congr {measured measured' : MeasurementSet}
    (h : ∀ key, measured.get? key = measured'.get? key) (g : QueryGroup) :
    g.run w answer measured = g.run w answer measured' := by
  unfold run
  rw [step_eq_of_sameBounds fun q _ ↦ ⟨h q.min, h q.max⟩]

namespace Run

/-- Running groups records what each of them measures after the measurements of earlier phases. -/
theorem ledger_takeAll_ofAnswers (r : Run) (gs : List QueryGroup) :
    (r.takeAll (.ofAnswers answer) w gs).ledger = r.ledger.recordAll
      (gs.flatMap fun g ↦ (g.run w answer r.ledger.measurements).measurements) := by
  unfold takeAll
  rw [Session.allTurns_ofAnswers]
  change r.ledger.recordAll _ = _
  rw [List.flatMap_map]

/-- The same is found for every key in what two runs have recorded. -/
def SameFound (r r' : Run) : Prop :=
  ∀ key, r.ledger.measurements.get? key = r'.ledger.measurements.get? key

variable {r r' : Run}

/-- Groups that bind different keys may run in either of two orders. -/
theorem SameFound.takeAll (h : r.SameFound r') {gs gs' : List QueryGroup} (hperm : gs'.Perm gs)
    (hapart : gs.Pairwise fun g k ↦ g.keys.Disjoint k.keys) :
    (r.takeAll (.ofAnswers answer) w gs).SameFound (r'.takeAll (.ofAnswers answer) w gs') := by
  intro key
  rw [ledger_takeAll_ofAnswers, ledger_takeAll_ofAnswers, Ledger.get?_recordAll,
    Ledger.get?_recordAll, h key]
  simp only [QueryGroup.run_congr h]
  refine congrArg _ (find?_flatMap_of_perm hperm.symm (hapart.imp ?_))
  intro g k hdisjoint m hm n hn hkey
  rw [← of_decide_eq_true hkey]
  refine decide_eq_false fun hsame ↦ ?_
  have hmem : m.key ∈ g.keys := by
    rw [← g.keys_run w answer r'.ledger.measurements]
    exact List.mem_map_of_mem hm
  have hmem' : n.key ∈ k.keys := by
    rw [← k.keys_run w answer r'.ledger.measurements]
    exact List.mem_map_of_mem hn
  exact hdisjoint hmem (hsame ▸ hmem')

/-- Phases whose groups bind different keys may each run in either of two orders. -/
theorem SameFound.takePhases {p p' : Plan} (h : r.SameFound r')
    (hperm : ∀ phase, (p'.groupsIn phase).Perm (p.groupsIn phase))
    (hapart : ∀ phase, (p.groupsIn phase).Pairwise fun g k ↦ g.keys.Disjoint k.keys)
    (phases : List Phase) :
    (r.takePhases (.ofAnswers answer) w p phases).SameFound
      (r'.takePhases (.ofAnswers answer) w p' phases) := by
  induction phases generalizing r r' with
  | nil => exact h
  | cons phase rest ih => exact ih (h.takeAll (hperm phase) (hapart phase))

end Run

end

/-! ### Reports -/

/-- Of the measurements that are kept, that of a key is found if it is kept. -/
theorem MeasurementSet.find?_filter (ms : MeasurementSet) (kept : Measurement → Bool)
    (key : MetricKey) :
    (ms.entries.filter kept).find? (fun m ↦ m.key = key) = (ms.get? key).filter kept := by
  have hkept : ((ms.entries.filter kept).map Measurement.key).Nodup :=
    ms.distinct.sublist (List.filter_sublist.map _)
  ext m
  rw [find?_key_eq_some_iff hkept, Option.filter_eq_some_iff, get?,
    find?_key_eq_some_iff ms.distinct, List.mem_filter, and_right_comm]

/-- A plan with its groups in another order. -/
def Plan.withGroups (p : Plan) (gs : List QueryGroup) : Plan := { p with groups := gs }

/-- Two runs of a plan come to the same: the same is found for every key before derivation, the same
is derived, and the same is found for every key after it. -/
structure Run.SameEnd (p : Plan) (r r' : Run) : Prop where
  recorded : r.SameFound r'
  derivations : r.ledger.derivations p.derived = r'.ledger.derivations p.derived
  derived : ∀ key, (r.ledger.derive p.derived).measurements.get? key =
    (r'.ledger.derive p.derived).measurements.get? key

/-- Runs in which the same is found come to the same. -/
theorem Run.SameFound.sameEnd {r r' : Run} (h : r.SameFound r') (p : Plan) : r.SameEnd p r' := by
  have hderivations := @Ledger.derivations_congr _ _ p.derived h
  refine ⟨h, hderivations, ?_⟩
  intro key
  rw [Ledger.derive_eq_recordAll, Ledger.derive_eq_recordAll, Ledger.get?_recordAll,
    Ledger.get?_recordAll, hderivations, h key]

namespace Scan

variable {scan : Scan} {answer : String → Except ScanError Rows}

/-- If no answer is that the connection is lost, a plan may run the groups of each phase in any
order: the same is recorded for every key, the same is derived, and the tests have the same results
in the same order. -/
theorem reports_same_in_any_order {w : Warehouse} {cap : Nat} {config : ScanConfiguration}
    {columns : List TableColumn} {p : Plan} {gs : List QueryGroup}
    (hplan : config.plan w cap columns = .ok p)
    (hdistinct : (columns.map fun c ↦ Text.lower c.name).Nodup)
    (hperm : ∀ phase, ((p.withGroups gs).groupsIn phase).Perm (p.groupsIn phase))
    (hkept : ∀ sql e, answer sql = .error e → e.isConnectionError = false)
    (hfresh : scan.stage = .initialized) :
    (scan.runPlan (.ofAnswers answer) p).SameEnd p
        (scan.runPlan (.ofAnswers answer) (p.withGroups gs)) ∧
      ∃ result result', (scan.execute (.ofAnswers answer) p).2 = .ok result ∧
        (scan.execute (.ofAnswers answer) (p.withGroups gs)).2 = .ok result' ∧
        (∀ key, result.measurement? key = result'.measurement? key) ∧
        result.tests = result'.tests := by
  have hs : (Session.ofAnswers answer).KeepsConnection := fun _ ↦ hkept
  obtain ⟨result, hresult⟩ := exists_result (p := p) hs hfresh
  obtain ⟨result', hresult'⟩ := exists_result (p := p.withGroups gs) hs hfresh
  obtain ⟨hlost, hreport⟩ := of_execute hresult
  obtain ⟨hlost', hreport'⟩ := of_execute hresult'
  have hapart : ∀ phase, (p.groupsIn phase).Pairwise fun g k ↦ g.keys.Disjoint k.keys := by
    obtain ⟨_, source, _, rfl⟩ := ScanConfiguration.plan_eq_ok_iff.mp hplan
    exact Draft.pairwise_disjoint_groupsIn hdistinct
  have hsame : (scan.runPlan (.ofAnswers answer) p).SameEnd p
      (scan.runPlan (.ofAnswers answer) (p.withGroups gs)) := by
    rw [runPlan_of_lost? hlost, runPlan_of_lost? hlost']
    have hbegun : (scan.begun p).SameFound (scan.begun (p.withGroups gs)) := fun _ ↦ rfl
    exact (hbegun.takePhases hperm hapart Phase.all).sameEnd p
  refine ⟨hsame, result, result', hresult, hresult', ?_, ?_⟩
  · intro key
    rw [hreport, hreport']
    unfold ScanResult.measurement? report
    rw [MeasurementSet.find?_filter, MeasurementSet.find?_filter]
    exact congrArg _ (hsame.derived key)
  · rw [hreport, hreport']
    unfold report
    refine List.flatMap_congr fun t _ ↦ ?_
    exact t.evaluate_congr fun key _ ↦ hsame.derived key

end Scan

/-- The plan of the table of orders may run its groups backwards in each phase, when every query is
answered with the number three. -/
theorem ordersConfiguration_reports_same_in_any_order :
    let scan := Scan.ofConfiguration .postgreSQL ordersConfiguration
    let answer : String → Except ScanError Rows := fun _ ↦ .ok ⟨["n"], [[.int 3]]⟩
    ∃ p, ordersConfiguration.plan .postgreSQL 2 ordersColumns = .ok p ∧
      (ordersColumns.map fun c ↦ Text.lower c.name).Nodup ∧
      (∀ phase, ((p.withGroups p.groups.reverse).groupsIn phase).Perm (p.groupsIn phase)) ∧
      (∀ sql e, answer sql = .error e → e.isConnectionError = false) ∧
      scan.stage = .initialized ∧
      (scan.runPlan (.ofAnswers answer) p).SameEnd p
        (scan.runPlan (.ofAnswers answer) (p.withGroups p.groups.reverse)) ∧
      ∃ result result', (scan.execute (.ofAnswers answer) p).2 = .ok result ∧
        (scan.execute (.ofAnswers answer) (p.withGroups p.groups.reverse)).2 = .ok result' ∧
        (∀ key, result.measurement? key = result'.measurement? key) ∧
        result.tests = result'.tests := by
  intro scan answer
  obtain ⟨p, hplan⟩ : ∃ p, ordersConfiguration.plan .postgreSQL 2 ordersColumns = .ok p :=
    ScanConfiguration.exists_plan (by decide) rfl
  have hdistinct : (ordersColumns.map fun c ↦ Text.lower c.name).Nodup := by decide
  have hperm : ∀ phase,
      ((p.withGroups p.groups.reverse).groupsIn phase).Perm (p.groupsIn phase) :=
    fun _ ↦ p.groups.reverse_perm.filter _
  have hkept : ∀ sql e, answer sql = .error e → e.isConnectionError = false := by
    intro _ _ h
    cases h
  exact ⟨p, hplan, hdistinct, hperm, hkept, rfl,
    Scan.reports_same_in_any_order hplan hdistinct hperm hkept rfl⟩

end DataQuality
