import DataQuality.Scan.Basic
import DataQuality.Proofs.KeyedLists
import DataQuality.Proofs.Ledgers

/-!
# Runs that come to their end

Unless the connection is lost, every group of a plan has its turn, phase by phase, and a turn
measures the keys of its group however it ends. So what is recorded, key by key, is settled by the
plan; only the readings depend on the warehouse.
-/

namespace DataQuality

/-! ### Turns -/

/-- A turn in which the connection is lost does not succeed. -/
theorem Turn.not_succeeded_of_lost? {t : Turn} (h : t.lost?.isSome = true) :
    t.succeeded = false := by
  unfold Turn.lost? GroupOutcome.error? at h
  unfold Turn.succeeded GroupOutcome.succeeded
  cases ha : t.outcome.asked with
  | none => rfl
  | some q =>
    rw [ha, Option.bind_some] at h
    unfold AskedQuery.error? at h
    rw [Option.any_some]
    unfold AskedQuery.succeeded
    cases hr : q.result with
    | error e => rfl
    | ok n => simp [hr] at h

/-- However a group is answered, it has one measurement for each of its bindings, whatever the
readings are. -/
theorem QueryGroup.measurements_run (w : Warehouse) (answer : String → Except ScanError Rows)
    (g : QueryGroup) (measured : MeasurementSet) :
    ∃ reading : Binding → Reading, (g.run w answer measured).measurements =
      g.bindings.map fun b ↦ ⟨b.key, reading b, b.internal⟩ := by
  unfold run
  split
  · next sql range _ =>
    cases answer sql with
    | error e => exact ⟨fun _ ↦ .failed e.message, rfl⟩
    | ok rows => exact ⟨fun b ↦ (b.measure (rows.read g.shape range b)).reading, rfl⟩
  · next reading _ => exact ⟨fun _ ↦ reading, rfl⟩

/-- However a group is answered, its outcome has its number. -/
@[simp] theorem QueryGroup.id_run (w : Warehouse) (answer : String → Except ScanError Rows)
    (g : QueryGroup) (measured : MeasurementSet) : (g.run w answer measured).id = g.id := by
  unfold run
  split
  · next sql _ _ => cases answer sql <;> rfl
  · rfl

namespace Session

variable {s : Session} {w : Warehouse} {measured : MeasurementSet}

/-- A turn has one measurement for each binding of its group, whatever its readings are. -/
theorem measurements_turn (asked : List String) (g : QueryGroup) :
    ∃ reading : Binding → Reading, (s.turn w measured asked g).outcome.measurements =
      g.bindings.map fun b ↦ ⟨b.key, reading b, b.internal⟩ := by
  unfold turn
  split
  · exact ⟨fun _ ↦ .skipped cancelledReason, rfl⟩
  · exact g.measurements_run w (s.answer asked) measured

/-- A turn measures the keys of its group. -/
@[simp] theorem map_key_turn (asked : List String) (g : QueryGroup) :
    (s.turn w measured asked g).outcome.measurements.map Measurement.key = g.keys := by
  obtain ⟨reading, hms⟩ := measurements_turn (s := s) asked g
  rw [hms, List.map_map]
  rfl

/-- A turn is that of its group. -/
@[simp] theorem id_turn (asked : List String) (g : QueryGroup) :
    (s.turn w measured asked g).outcome.id = g.id := by
  unfold turn
  split
  · rfl
  · exact g.id_run w (s.answer asked) measured

/-- The turns of all groups in order, whatever is lost on the way. -/
def allTurns (s : Session) (w : Warehouse) (measured : MeasurementSet) (asked : List String) :
    List QueryGroup → List Turn
  | [] => []
  | g :: rest =>
    let t := s.turn w measured asked g
    t :: s.allTurns w measured (asked ++ t.asked) rest

@[simp] theorem map_id_allTurns (asked : List String) (gs : List QueryGroup) :
    (s.allTurns w measured asked gs).map (fun t ↦ t.outcome.id) = gs.map QueryGroup.id := by
  induction gs generalizing asked with
  | nil => rfl
  | cons g rest ih => rw [allTurns, List.map_cons, ih, id_turn, List.map_cons]

/-- All turns together measure the keys of the groups in order. -/
theorem map_key_allTurns (asked : List String) (gs : List QueryGroup) :
    ((s.allTurns w measured asked gs).flatMap fun t ↦ t.outcome.measurements).map
      Measurement.key = gs.flatMap fun g ↦ g.keys := by
  induction gs generalizing asked with
  | nil => rfl
  | cons g rest ih =>
    rw [allTurns, List.flatMap_cons, List.map_append, ih, map_key_turn, List.flatMap_cons]

/-- Either all groups have their turn, or the connection is lost before any query succeeded. -/
theorem turns_cases (asked : List String) (succeeded : Bool) (gs : List QueryGroup) :
    s.turns w measured asked succeeded gs = s.allTurns w measured asked gs ∨
      succeeded = false ∧ (s.turns w measured asked succeeded gs).any Turn.succeeded = false ∧
        ((s.turns w measured asked succeeded gs).findSome? Turn.lost?).isSome = true := by
  induction gs generalizing asked succeeded with
  | nil => exact .inl rfl
  | cons g rest ih =>
    rw [turns, allTurns]
    split
    · next h =>
      right
      obtain ⟨hnot, hlost⟩ := Bool.and_eq_true_iff.mp h
      refine ⟨by simpa using hnot, ?_, ?_⟩
      · rw [List.any_cons, List.any_nil, Bool.or_false]
        exact Turn.not_succeeded_of_lost? hlost
      · rw [List.findSome?_cons]
        split
        · rfl
        · next hnone =>
          rw [hnone] at hlost
          cases hlost
    · rcases ih (asked ++ (s.turn w measured asked g).asked)
        (succeeded || (s.turn w measured asked g).succeeded) with hall | ⟨hfalse, hany, hlost⟩
      · left
        rw [hall]
      · right
        obtain ⟨hbefore, hturn⟩ := Bool.or_eq_false_iff.mp hfalse
        refine ⟨hbefore, ?_, ?_⟩
        · rw [List.any_cons, hany, hturn]
          rfl
        · rw [List.findSome?_cons]
          split
          · rfl
          · exact hlost

/-- No answer of the warehouse says that the connection is lost. -/
def KeepsConnection (s : Session) : Prop :=
  ∀ asked sql e, s.answer asked sql = .error e → e.isConnectionError = false

/-- While the connection is kept, it is lost in no turn. -/
theorem lost?_of_mem_turns (h : s.KeepsConnection) {asked : List String} {succeeded : Bool}
    {gs : List QueryGroup} {t : Turn} (ht : t ∈ s.turns w measured asked succeeded gs) :
    t.lost? = none := by
  have hturn : ∀ asked g, (s.turn w measured asked g).lost? = none := by
    intro asked g
    unfold turn
    split
    · rfl
    · unfold QueryGroup.run
      split
      · next sql range _ =>
        cases hanswer : s.answer asked sql with
        | ok rows => rfl
        | error e =>
          change Option.filter ScanError.isConnectionError (some e) = none
          rw [Option.filter_some, h asked sql e hanswer]
          rfl
      · rfl
  induction gs generalizing asked succeeded with
  | nil => cases ht
  | cons g rest ih =>
    rw [turns] at ht
    split at ht
    · rw [List.mem_singleton.mp ht]
      exact hturn asked g
    · rcases List.mem_cons.mp ht with rfl | ht
      · exact hturn asked g
      · exact ih ht

end Session

/-! ### Runs -/

namespace Run

variable {s : Session} {w : Warehouse} {p : Plan} {r : Run}

theorem take_take (r : Run) (ts us : List Turn) : (r.take ts).take us = r.take (ts ++ us) := by
  simp [take]

@[simp] theorem take_nil (r : Run) : r.take [] = r := by
  simp [take]

/-- After some more turns the run has ended if a connection was lost and nothing succeeded. -/
theorem lost?_take (r : Run) (ts : List Turn) :
    (r.take ts).lost? = if r.anySucceeded || ts.any Turn.succeeded then none
      else (r.turns.findSome? Turn.lost?).or (ts.findSome? Turn.lost?) := by
  unfold lost? anySucceeded take
  rw [List.any_append, List.findSome?_append]

/-- Runs groups, whatever is lost on the way. -/
def takeAll (s : Session) (w : Warehouse) (r : Run) (groups : List QueryGroup) : Run :=
  r.take (s.allTurns w r.ledger.measurements r.asked groups)

/-- Runs phases of a plan in order, whatever is lost on the way. -/
def takePhases (s : Session) (w : Warehouse) (p : Plan) (r : Run) (phases : List Phase) : Run :=
  phases.foldl (fun r phase ↦ r.takeAll s w (p.groupsIn phase)) r

/-- A run that has not ended ran all groups of the phase. -/
theorem runGroups_of_lost? {groups : List QueryGroup} (h : (r.runGroups s w groups).lost? = none) :
    r.lost? = none ∧ r.runGroups s w groups = r.takeAll s w groups := by
  have hbefore : r.lost? = none := by
    cases hlost : r.lost? with
    | none => rfl
    | some e =>
      have hsame : r.runGroups s w groups = r := by
        unfold runGroups
        rw [hlost]
        rfl
      rw [hsame, hlost] at h
      cases h
  refine ⟨hbefore, ?_⟩
  have hrun : r.runGroups s w groups =
      r.take (s.turns w r.ledger.measurements r.asked r.anySucceeded groups) := by
    unfold runGroups
    rw [hbefore]
    rfl
  rw [hrun] at h ⊢
  rcases Session.turns_cases (s := s) r.asked r.anySucceeded groups with
    hall | ⟨hnot, hany, hsome⟩
  · rw [hall]
    rfl
  · -- Nobody succeeded before or after the loss, so the loss has ended the run.
    have hlost : (r.take (s.turns w r.ledger.measurements r.asked r.anySucceeded groups)).lost? ≠
        none := by
      rw [lost?_take, hany, hnot]
      intro hnone
      have hparts := Option.or_eq_none_iff.mp hnone
      rw [hnot] at hsome
      rw [hparts.2] at hsome
      cases hsome
    exact absurd h hlost

/-- A run that has not ended ran all phases it was given. -/
theorem runPhases_of_lost? {phases : List Phase}
    (h : (phases.foldl (fun r phase ↦ r.runGroups s w (p.groupsIn phase)) r).lost? = none) :
    r.lost? = none ∧ phases.foldl (fun r phase ↦ r.runGroups s w (p.groupsIn phase)) r =
      r.takePhases s w p phases := by
  induction phases generalizing r with
  | nil => exact ⟨h, rfl⟩
  | cons phase rest ih =>
    rw [List.foldl_cons] at h ⊢
    obtain ⟨hphase, hrest⟩ := ih h
    obtain ⟨hbefore, hgroups⟩ := runGroups_of_lost? hphase
    refine ⟨hbefore, ?_⟩
    rw [hrest, hgroups]
    rfl

/-- While the connection is kept, a run does not end early. -/
theorem lost?_runPhases (hs : s.KeepsConnection) (hr : ∀ t ∈ r.turns, t.lost? = none)
    (phases : List Phase) :
    (phases.foldl (fun r phase ↦ r.runGroups s w (p.groupsIn phase)) r).lost? = none := by
  induction phases generalizing r with
  | nil =>
    unfold lost?
    split
    · rfl
    · exact List.findSome?_eq_none_iff.mpr hr
  | cons phase rest ih =>
    refine ih ?_
    intro t ht
    change t ∈ (r.runGroups s w (p.groupsIn phase)).turns at ht
    unfold runGroups at ht
    split at ht
    · exact hr t ht
    · rcases List.mem_append.mp ht with ht | ht
      · exact hr t ht
      · exact Session.lost?_of_mem_turns hs ht

/-- The turns that running phases adds are those of their groups, in order. -/
theorem exists_takePhases (s : Session) (w : Warehouse) (p : Plan) (r : Run)
    (phases : List Phase) :
    ∃ ts, r.takePhases s w p phases = r.take ts ∧
      ts.map (fun t ↦ t.outcome.id) = (phases.flatMap p.groupsIn).map QueryGroup.id ∧
      (ts.flatMap fun t ↦ t.outcome.measurements).map Measurement.key =
        (phases.flatMap p.groupsIn).flatMap fun g ↦ g.keys := by
  induction phases generalizing r with
  | nil => exact ⟨[], (take_nil r).symm, rfl, rfl⟩
  | cons phase rest ih =>
    obtain ⟨ts, hrun, hids, hkeys⟩ := ih (r.takeAll s w (p.groupsIn phase))
    refine ⟨s.allTurns w r.ledger.measurements r.asked (p.groupsIn phase) ++ ts, ?_, ?_, ?_⟩
    · rw [← take_take, ← takeAll, ← hrun]
      rfl
    · rw [List.map_append, Session.map_id_allTurns, hids, List.flatMap_cons, List.map_append]
    · rw [List.flatMap_append, List.map_append, Session.map_key_allTurns, hkeys,
        List.flatMap_cons, List.flatMap_append]

end Run

/-! ### Scans -/

namespace Scan

variable {s : Session} {scan : Scan} {p : Plan} {result : ScanResult}

/-- A scan plans what its configuration plans, if that is sound. -/
theorem plan_eq_ok_iff {columns : List TableColumn} :
    scan.plan columns = .ok p ↔
      scan.config.error? = none ∧ scan.config.plan scan.dialect scan.cap columns = .ok p := by
  unfold plan
  cases scan.config.error? with
  | some e => simp
  | none =>
    cases scan.config.plan scan.dialect scan.cap columns with
    | ok q => simp
    | error e => simp

/-- Moving on changes the stage and nothing else. -/
theorem of_advance {target : ScanStage} {next : Scan} (h : scan.advance target = .ok next) :
    next = { scan with stage := target } := by
  unfold advance at h
  split at h
  · cases h
    rfl
  · cases h

/-- To move on twice is to move on to the second stage. -/
theorem of_advance_advance {first second : ScanStage} {next : Scan}
    (h : ((scan.advance first).bind fun scan ↦ scan.advance second) = .ok next) :
    next = { scan with stage := second } := by
  cases hfirst : scan.advance first with
  | error e =>
    rw [hfirst] at h
    cases h
  | ok between =>
    rw [hfirst] at h
    cases of_advance hfirst
    exact @of_advance { scan with stage := first } second next h

/-- Only a run that came to its end is reported on. -/
theorem of_conclude {r : Run} (h : (scan.conclude p r).2 = .ok result) :
    r.lost? = none ∧ result = scan.report p r (r.ledger.derive p.derived) := by
  unfold conclude at h
  split at h
  · cases h
  · next hlost =>
    refine ⟨hlost, ?_⟩
    split at h
    · cases h
      rfl
    · cases h

/-- Concluding a run asks nothing more. -/
theorem asked_conclude (scan : Scan) (p : Plan) (r : Run) :
    (scan.conclude p r).1.asked = scan.asked := by
  unfold conclude
  split
  · rfl
  · split
    · next done hdone => rw [of_advance_advance hdone]
    · rfl

/-- A result is what the run of its plan was concluded with. -/
theorem execute_eq_conclude (h : (scan.execute s p).2 = .ok result) :
    scan.execute s p = conclude
      { scan with stage := .executing, asked := (scan.runPlan s p).asked } p
      (scan.runPlan s p) := by
  unfold execute at h ⊢
  split at h
  · next running hrunning =>
    cases of_advance_advance hrunning
    rfl
  · cases h

/-- A result reports on the run of its plan, which came to its end. -/
theorem of_execute (h : (scan.execute s p).2 = .ok result) :
    (scan.runPlan s p).lost? = none ∧
      result = scan.report p (scan.runPlan s p) ((scan.runPlan s p).ledger.derive p.derived) := by
  rw [execute_eq_conclude h] at h
  have hdone := of_conclude h
  exact hdone

/-- A scan with a result has asked what its run asked. -/
theorem asked_execute (h : (scan.execute s p).2 = .ok result) :
    (scan.execute s p).1.asked = (scan.runPlan s p).asked := by
  rw [execute_eq_conclude h, asked_conclude]

/-- While the connection is kept, a scan that has not begun returns a result. -/
theorem exists_result (hs : s.KeepsConnection) (hstage : scan.stage = .initialized) :
    ∃ result, (scan.execute s p).2 = .ok result := by
  obtain ⟨warehouse, dialect, config, cap, stage, asked⟩ := scan
  cases hstage
  have hlost : (runPlan s ⟨warehouse, dialect, config, cap, .executing, asked⟩ p).lost? = none := by
    unfold runPlan Run.runPlan
    apply Run.lost?_runPhases hs
    simp [Run.start]
  unfold execute
  simp only [advance, ScanStage.next?, if_true, Except.bind]
  unfold conclude
  rw [hlost]
  exact ⟨_, rfl⟩

/-- The run of a plan before its first turn, when the columns of the table are recorded. -/
def begun (scan : Scan) (p : Plan) : Run :=
  .start scan.asked [⟨.ofTable schemaMetric, .measured (.schema p.columns), false⟩]

/-- A run that came to its end ran all phases after recording the columns of the table. -/
theorem runPlan_of_lost? (h : (scan.runPlan s p).lost? = none) :
    scan.runPlan s p = (scan.begun p).takePhases s scan.dialect p Phase.all :=
  (Run.runPhases_of_lost? h).2

/-- A scan reports no fault exactly when its plan writes each key once, counting the columns of the
table, which the scan records itself. -/
theorem faults_eq_nil_iff (h : (scan.execute s p).2 = .ok result) :
    result.faults = [] ↔
      (.ofTable schemaMetric :: (Phase.all.flatMap p.groupsIn).flatMap (fun g ↦ g.keys) ++
        p.derived.map DerivedMetric.key).Nodup := by
  obtain ⟨hlost, rfl⟩ := of_execute h
  rw [runPlan_of_lost? hlost]
  obtain ⟨ts, hrun, _, hkeys⟩ := Run.exists_takePhases s scan.dialect p (scan.begun p) Phase.all
  rw [hrun]
  change List.map _ _ = [] ↔ _
  rw [List.map_eq_nil_iff, Ledger.derive_eq_recordAll]
  change ((((Ledger.empty.recordAll _).recordAll _).recordAll _).faults = []) ↔ _
  rw [← Ledger.recordAll_append, ← Ledger.recordAll_append, Ledger.faults_recordAll_eq_nil_iff,
    List.map_append, List.map_append, hkeys, Ledger.map_key_derivations]
  simp [Ledger.empty, Ledger.keys, MeasurementSet.empty]

end Scan

end DataQuality
