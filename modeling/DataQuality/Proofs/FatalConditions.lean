import DataQuality.Proofs.Drafts
import DataQuality.Proofs.Runs

/-!
# Fatal conditions

A scan that has not begun fails for five reasons only, and they are looked at in order: the user had
cancelled, the columns are not found, the configuration is unsound, it cannot be planned, or the
connection is lost before any query succeeded. Whatever else goes wrong becomes part of the result.
-/

namespace DataQuality

/-! ### Losing the connection -/

/-- The error of the first turn in which the connection is lost while no query has succeeded. -/
def firstLoss? (succeeded : Bool) : List Turn → Option ScanError
  | [] => none
  | t :: rest =>
    if !succeeded && t.lost?.isSome then t.lost? else firstLoss? (succeeded || t.succeeded) rest

/-- Once a query has succeeded no loss counts. -/
@[simp] theorem firstLoss?_true (ts : List Turn) : firstLoss? true ts = none := by
  induction ts with
  | nil => rfl
  | cons t rest ih => exact ih

/-- If the first query has succeeded no loss counts. -/
theorem firstLoss?_cons_of_succeeded {t : Turn} (h : t.succeeded = true) (ts : List Turn) :
    firstLoss? false (t :: ts) = none := by
  have hkept : ¬ t.lost?.isSome = true := by
    intro hlost
    rw [t.not_succeeded_of_lost? hlost] at h
    cases h
  rw [firstLoss?, if_neg (by simpa using hkept), h]
  exact firstLoss?_true ts

/-- Later turns count only after earlier ones in which nothing was lost and nothing succeeded. -/
theorem firstLoss?_append (succeeded : Bool) (ts us : List Turn) :
    firstLoss? succeeded (ts ++ us) =
      (firstLoss? succeeded ts).or (firstLoss? (succeeded || ts.any Turn.succeeded) us) := by
  induction ts generalizing succeeded with
  | nil => simp [firstLoss?]
  | cons t rest ih =>
    rw [List.cons_append, firstLoss?, firstLoss?, ih, List.any_cons, Bool.or_assoc]
    split
    · next hlost =>
      obtain ⟨_, hsome⟩ := Bool.and_eq_true_iff.mp hlost
      obtain ⟨e, he⟩ := Option.isSome_iff_exists.mp hsome
      rw [he, Option.some_or]
    · rfl

/-- A loss counts exactly if there is one before any success. -/
theorem isSome_firstLoss?_iff {ts : List Turn} :
    (firstLoss? false ts).isSome = true ↔
      ∃ before t after, ts = before ++ t :: after ∧ t.lost?.isSome = true ∧
        ∀ u ∈ before, u.succeeded = false := by
  induction ts with
  | nil => simp [firstLoss?]
  | cons t rest ih =>
    rw [firstLoss?]
    constructor
    · intro h
      split at h
      · next hlost =>
        obtain ⟨_, hsome⟩ := Bool.and_eq_true_iff.mp hlost
        exact ⟨[], t, rest, rfl, hsome, by simp⟩
      · cases hsucceeded : t.succeeded with
        | true => simp [hsucceeded] at h
        | false =>
          rw [hsucceeded] at h
          obtain ⟨before, u, after, rfl, hlost, hbefore⟩ := ih.mp h
          refine ⟨t :: before, u, after, rfl, hlost, ?_⟩
          exact List.forall_mem_cons.mpr ⟨hsucceeded, hbefore⟩
    · rintro ⟨before, u, after, heq, hlost, hbefore⟩
      cases before with
      | nil =>
        obtain ⟨rfl, rfl⟩ := List.cons.inj heq
        simp [hlost]
      | cons v before =>
        obtain ⟨rfl, rfl⟩ := List.cons.inj heq
        obtain ⟨hfailed, hbefore⟩ := List.forall_mem_cons.mp hbefore
        rw [hfailed]
        split
        · next h => exact (Bool.and_eq_true_iff.mp h).2
        · exact ih.mpr ⟨before, u, after, rfl, hlost, hbefore⟩

/-- What is lost is the connection. -/
theorem exists_connection_of_firstLoss? {succeeded : Bool} {ts : List Turn} {e : ScanError}
    (h : firstLoss? succeeded ts = some e) : ∃ cause, e = .connection cause := by
  induction ts generalizing succeeded with
  | nil => cases h
  | cons t rest ih =>
    rw [firstLoss?] at h
    split at h
    · have hlost := (Option.filter_eq_some_iff.mp h).2
      cases e with
      | connection cause => exact ⟨cause, rfl⟩
      | _ => cases hlost
    · exact ih h

namespace Session

variable {s : Session} {w : Warehouse} {measured : MeasurementSet}

/-- Turns that stop at a loss have the same first loss as all turns. -/
theorem firstLoss?_turns (asked : List String) (succeeded : Bool) (gs : List QueryGroup) :
    firstLoss? succeeded (s.turns w measured asked succeeded gs) =
      firstLoss? succeeded (s.allTurns w measured asked gs) := by
  induction gs generalizing asked succeeded with
  | nil => rfl
  | cons g rest ih =>
    rw [turns, allTurns, firstLoss?]
    split
    · next hlost => rw [firstLoss?, if_pos hlost]
    · next hkept => rw [firstLoss?, if_neg hkept, ih]

/-- When turns stop at a loss, a loss in them is the first unless a query succeeded. -/
theorem firstLoss?_eq_findSome? (asked : List String) (succeeded : Bool) (gs : List QueryGroup) :
    firstLoss? succeeded (s.turns w measured asked succeeded gs) =
      if succeeded || (s.turns w measured asked succeeded gs).any Turn.succeeded then none
      else (s.turns w measured asked succeeded gs).findSome? Turn.lost? := by
  induction gs generalizing asked succeeded with
  | nil => cases succeeded <;> rfl
  | cons g rest ih =>
    rw [turns]
    split
    · next hlost =>
      obtain ⟨hnot, hsome⟩ := Bool.and_eq_true_iff.mp hlost
      have hfailed := Turn.not_succeeded_of_lost? hsome
      obtain rfl : succeeded = false := by simpa using hnot
      obtain ⟨e, he⟩ := Option.isSome_iff_exists.mp hsome
      simp [firstLoss?, hfailed, he]
    · next hkept =>
      rw [firstLoss?, if_neg hkept, ih, List.any_cons, Bool.or_assoc]
      cases succeeded with
      | true => rfl
      | false =>
        -- Nothing has succeeded, so the turn goes on only if nothing was lost in it.
        have hnone : (s.turn w measured asked g).lost? = none := by simpa using hkept
        rw [List.findSome?_cons, hnone]

end Session

namespace Run

variable {s : Session} {w : Warehouse} {p : Plan} {r full : Run}

/-- A run that may stop, beside one that gives all groups their turn: it has stopped exactly at the
first loss, and is the same run until then. -/
structure StopsAtLoss (r full : Run) : Prop where
  lost : r.lost? = firstLoss? false full.turns
  same : r.lost? = none → r = full

namespace StopsAtLoss

/-- Running groups keeps the runs beside each other. -/
theorem runGroups (h : StopsAtLoss r full) (groups : List QueryGroup) :
    StopsAtLoss (r.runGroups s w groups) (full.takeAll s w groups) := by
  refine ⟨?_, ?_⟩
  · change _ = firstLoss? false (full.turns ++ _)
    rw [firstLoss?_append, ← h.lost]
    cases hlost : r.lost? with
    | some e =>
      rw [Option.some_or, Run.runGroups, hlost]
      exact hlost
    | none =>
      obtain rfl := h.same hlost
      rw [Option.none_or, Run.runGroups, hlost, Bool.false_or]
      change (r.take _).lost? = firstLoss? r.anySucceeded _
      rw [lost?_take, ← Session.firstLoss?_turns, Session.firstLoss?_eq_findSome?]
      unfold lost? at hlost
      split at hlost
      · next hsucceeded => simp [hsucceeded]
      · rw [hlost, Option.none_or]
  · intro hkept
    obtain ⟨hbefore, hrun⟩ := runGroups_of_lost? hkept
    rw [hrun, h.same hbefore]

/-- Running phases keeps the runs beside each other. -/
theorem runPhases (h : StopsAtLoss r full) (phases : List Phase) :
    StopsAtLoss (phases.foldl (fun r phase ↦ r.runGroups s w (p.groupsIn phase)) r)
      (full.takePhases s w p phases) := by
  induction phases generalizing r full with
  | nil => exact h
  | cons phase rest ih => exact ih (h.runGroups (p.groupsIn phase))

end StopsAtLoss

end Run

/-! ### Conditions -/

namespace Scan

/-- The turns of all groups of a plan, phase by phase, whatever is lost on the way. -/
def turnsOf (s : Session) (scan : Scan) (p : Plan) : List Turn :=
  ((scan.begun p).takePhases s scan.dialect p Phase.all).turns

/-- Every group has its turn, in the order of the phases. -/
theorem map_id_turnsOf (s : Session) (scan : Scan) (p : Plan) :
    (scan.turnsOf s p).map (fun t ↦ t.outcome.id) =
      (Phase.all.flatMap p.groupsIn).map QueryGroup.id := by
  obtain ⟨ts, hrun, hids, _⟩ := Run.exists_takePhases s scan.dialect p (scan.begun p) Phase.all
  rw [turnsOf, hrun]
  exact hids

/-- The run of a plan ends early exactly at the first loss. -/
theorem lost?_runPlan (s : Session) (scan : Scan) (p : Plan) :
    (scan.runPlan s p).lost? = firstLoss? false (scan.turnsOf s p) := by
  have hstart : Run.StopsAtLoss (scan.begun p) (scan.begun p) := ⟨rfl, fun _ ↦ rfl⟩
  exact (hstart.runPhases Phase.all).lost

/-- The scan after the query for the columns of its table. -/
def afterDiscovery (scan : Scan) : Scan := { scan with asked := scan.asked ++ [scan.columnsQuery] }

end Scan

/-- Why a scan that has not begun may fail. -/
inductive FatalCondition where
  | cancelled
  | undiscovered
  | unsound
  | unplannable
  | disconnected
  deriving DecidableEq, Repr

namespace FatalCondition

/-- The conditions in the order in which they are looked at. -/
def all : List FatalCondition := [cancelled, undiscovered, unsound, unplannable, disconnected]

/-- The metadata query fails or describes no column. -/
def FindsNoColumn : Except ScanError Rows → Prop
  | .error _ => True
  | .ok rows => rows.tableColumns = []

/-- A column is configured that was not found, or a sample that the dialect cannot draw. -/
def CannotPlan (w : Warehouse) (config : ScanConfiguration) (columns : List TableColumn) : Prop :=
  (∃ name ∈ config.columns.keys, ∀ c ∈ columns, Text.eqFoldingAscii c.name name = false) ∨
    ∃ percentage e, config.samplePercentage = some percentage ∧
      w.sampleClause percentage config.sampleMethod = .error e

/-- Whether a condition holds of a scan in a session. -/
def Holds (s : Session) (scan : Scan) : FatalCondition → Prop
  | cancelled => s.isCancelled scan.asked = true
  | undiscovered => FindsNoColumn (s.answer scan.asked scan.columnsQuery)
  | unsound => ∃ e, scan.config.error? = some e
  | unplannable => ∃ rows, s.answer scan.asked scan.columnsQuery = .ok rows ∧
      CannotPlan scan.dialect scan.config rows.tableColumns
  | disconnected => ∃ rows p, s.answer scan.asked scan.columnsQuery = .ok rows ∧
      scan.plan rows.tableColumns = .ok p ∧
      ∃ before t after, scan.afterDiscovery.turnsOf s p = before ++ t :: after ∧
        t.lost?.isSome = true ∧ ∀ u ∈ before, u.succeeded = false

/-- Whether a condition holds and none before it does. -/
def IsFirst (s : Session) (scan : Scan) (c : FatalCondition) : Prop :=
  c.Holds s scan ∧ ∀ b ∈ all.takeWhile (· ≠ c), ¬ b.Holds s scan

/-- The kind of error that a condition ends in. -/
def EndsIn : FatalCondition → ScanError → Prop
  | cancelled, e => ∃ context, e = .cancelled context
  | undiscovered, e => ∃ table context, e = .schemaDiscovery table context
  | unsound, e | unplannable, e => ∃ message, e = .configuration message
  | disconnected, e => ∃ cause, e = .connection cause

/-- If a condition holds, one of them is the first. -/
theorem exists_isFirst {s : Session} {scan : Scan} (h : ∃ c, Holds s scan c) :
    ∃ c, IsFirst s scan c := by
  classical
  obtain ⟨c, hc⟩ := h
  have hsome : (all.find? fun c ↦ Holds s scan c).isSome = true :=
    List.find?_isSome.mpr ⟨c, by cases c <;> decide, decide_eq_true hc⟩
  obtain ⟨first, hfirst⟩ := Option.isSome_iff_exists.mp hsome
  obtain ⟨hholds, before, after, heq, hbefore⟩ := List.find?_eq_some_iff_append.mp hfirst
  have hne : ∀ b ∈ before, decide (b ≠ first) = true := by
    intro b hb
    refine decide_eq_true ?_
    rintro rfl
    simpa [hholds] using hbefore b hb
  have htaken : all.takeWhile (· ≠ first) = before := by
    rw [heq, List.takeWhile_append_of_pos hne, List.takeWhile_cons_of_neg (by simp),
      List.append_nil]
  refine ⟨first, of_decide_eq_true hholds, ?_⟩
  intro b hb
  rw [htaken] at hb
  simpa using hbefore b hb

end FatalCondition

namespace Scan

variable {s : Session} {scan : Scan} {p : Plan}

open FatalCondition

/-- A scan that was not cancelled begins. -/
theorem refusal?_eq_none (hfresh : scan.stage = .initialized)
    (hgoing : ¬ cancelled.Holds s scan) : scan.refusal? s = none := by
  unfold refusal?
  have hcancelled : s.isCancelled scan.asked = false := by simpa [Holds] using hgoing
  simp [hfresh, hcancelled]

/-- The columns of an answer are those it describes, if there are any. -/
theorem columnsOf_eq {rows : Rows} (h : rows.tableColumns ≠ []) :
    scan.columnsOf (.ok rows) = .ok rows.tableColumns :=
  if_neg (by simpa using h)

/-- A cancelled scan does not begin. -/
theorem run_of_cancelled (hfresh : scan.stage = .initialized) (h : cancelled.Holds s scan) :
    ∃ e, (scan.run s).2 = .error e ∧ cancelled.EndsIn e := by
  have hcancelled : s.isCancelled scan.asked = true := h
  have hrefused : ∃ context, scan.refusal? s = some (.cancelled context) := by
    unfold refusal?
    simp [hfresh, hcancelled]
  obtain ⟨context, hrefused⟩ := hrefused
  refine ⟨.cancelled context, ?_, context, rfl⟩
  unfold run
  rw [hrefused]

/-- Without columns a scan is not planned. -/
theorem run_of_undiscovered (hfresh : scan.stage = .initialized)
    (hgoing : ¬ cancelled.Holds s scan) (h : undiscovered.Holds s scan) :
    ∃ e, (scan.run s).2 = .error e ∧ undiscovered.EndsIn e := by
  have hcolumns : ∃ context, scan.columnsOf (s.answer scan.asked scan.columnsQuery) =
      .error (.schemaDiscovery scan.config.tableName context) := by
    change FindsNoColumn _ at h
    cases hanswer : s.answer scan.asked scan.columnsQuery with
    | error e => exact ⟨_, rfl⟩
    | ok rows =>
      rw [hanswer] at h
      exact ⟨_, if_pos (List.isEmpty_iff.mpr h)⟩
  obtain ⟨context, hcolumns⟩ := hcolumns
  refine ⟨.schemaDiscovery scan.config.tableName context, ?_, _, context, rfl⟩
  unfold run
  simp only [refusal?_eq_none hfresh hgoing, hcolumns]

/-- Once columns are found the scan is planned and run. -/
theorem run_of_discovered (hfresh : scan.stage = .initialized)
    (hgoing : ¬ cancelled.Holds s scan) (hfound : ¬ undiscovered.Holds s scan) :
    ∃ rows, s.answer scan.asked scan.columnsQuery = .ok rows ∧
      scan.run s = scan.afterDiscovery.runColumns s rows.tableColumns := by
  change ¬ FindsNoColumn _ at hfound
  cases hanswer : s.answer scan.asked scan.columnsQuery with
  | error e =>
    rw [hanswer] at hfound
    exact absurd trivial hfound
  | ok rows =>
    rw [hanswer] at hfound
    refine ⟨rows, rfl, ?_⟩
    unfold run
    simp only [refusal?_eq_none hfresh hgoing, hanswer, columnsOf_eq hfound]
    rfl

/-- A sound configuration of columns that were found is planned unless one of two things is
amiss. -/
theorem cannotPlan_iff {w : Warehouse} {cap : Nat} {config : ScanConfiguration}
    {columns : List TableColumn} :
    CannotPlan w config columns ↔ ∃ e, config.plan w cap columns = .error e := by
  unfold ScanConfiguration.plan
  constructor
  · intro h
    cases hunknown : config.unknownColumn? columns with
    | some name => exact ⟨_, rfl⟩
    | none =>
      rcases h with ⟨name, hname, habsent⟩ | ⟨percentage, e, hsample, hclause⟩
      · have hfound := List.find?_eq_none.mp hunknown name hname
        rw [List.any_eq_false.mpr (by simpa using habsent)] at hfound
        exact absurd rfl hfound
      · refine ⟨.cannotSample config.tableName e, ?_⟩
        simp only [ScanConfiguration.source, hsample, hclause]
        rfl
  · rintro ⟨e, h⟩
    split at h
    · next name hunknown =>
      refine .inl ⟨name, List.mem_of_find?_eq_some hunknown, ?_⟩
      simpa using List.find?_some hunknown
    · right
      unfold ScanConfiguration.source at h
      split at h
      · cases h
      · next percentage hsample =>
        split at h
        · cases h
        · next e' hclause => exact ⟨percentage, e', hsample, hclause⟩

/-- Once columns are found and the configuration is sound, the scan is run as it is planned. -/
theorem run_of_planned (hfresh : scan.stage = .initialized)
    (hgoing : ¬ cancelled.Holds s scan) (hfound : ¬ undiscovered.Holds s scan)
    (hsound : ¬ unsound.Holds s scan) (hplanned : ¬ unplannable.Holds s scan) :
    ∃ rows p, s.answer scan.asked scan.columnsQuery = .ok rows ∧
      scan.plan rows.tableColumns = .ok p ∧ scan.run s = scan.afterDiscovery.execute s p := by
  obtain ⟨rows, hanswer, hrun⟩ := run_of_discovered hfresh hgoing hfound
  have hnone : scan.config.error? = none := by
    cases herror : scan.config.error? with
    | none => rfl
    | some e => exact absurd ⟨e, herror⟩ hsound
  cases hplan : scan.config.plan scan.dialect scan.cap rows.tableColumns with
  | error e => exact absurd ⟨rows, hanswer, cannotPlan_iff.mpr ⟨e, hplan⟩⟩ hplanned
  | ok p =>
    have hok : scan.plan rows.tableColumns = .ok p := plan_eq_ok_iff.mpr ⟨hnone, hplan⟩
    have hok' : scan.afterDiscovery.plan rows.tableColumns = .ok p := hok
    refine ⟨rows, p, hanswer, hok, ?_⟩
    rw [hrun, runColumns, hok']

/-- A configuration that is not sound, or cannot be planned, is a configuration error. -/
theorem exists_configuration_of_plan {columns : List TableColumn} {e : ScanError}
    (h : scan.plan columns = .error e) : ∃ message, e = .configuration message := by
  unfold plan at h
  split at h
  · cases h
    exact ⟨_, rfl⟩
  · split at h
    · cases h
    · cases h
      exact ⟨_, rfl⟩

/-- A scan that is not planned fails with a configuration error. -/
theorem run_of_not_planned (hfresh : scan.stage = .initialized)
    (hgoing : ¬ cancelled.Holds s scan) (hfound : ¬ undiscovered.Holds s scan)
    (h : unsound.Holds s scan ∨ unplannable.Holds s scan) :
    ∃ e, (scan.run s).2 = .error e ∧ ∃ message, e = .configuration message := by
  obtain ⟨rows, hanswer, hrun⟩ := run_of_discovered hfresh hgoing hfound
  rw [hrun, runColumns]
  cases hplan : scan.afterDiscovery.plan rows.tableColumns with
  | error e => exact ⟨e, rfl, exists_configuration_of_plan hplan⟩
  | ok p =>
    obtain ⟨hsound, hplanned⟩ := plan_eq_ok_iff.mp hplan
    change scan.config.error? = none at hsound
    change scan.config.plan scan.dialect scan.cap rows.tableColumns = .ok p at hplanned
    rcases h with ⟨e, he⟩ | ⟨rows', hanswer', hcannot⟩
    · rw [hsound] at he
      cases he
    · rw [hanswer] at hanswer'
      cases hanswer'
      obtain ⟨e, he⟩ := cannotPlan_iff.mp hcannot
      rw [hplanned] at he
      cases he

/-- The plan of a scan that has not begun is run to its end unless the connection is lost. -/
theorem execute_cases (hfresh : scan.stage = .initialized) :
    (∃ e, firstLoss? false (scan.turnsOf s p) = some e ∧ (scan.execute s p).2 = .error e) ∨
      (firstLoss? false (scan.turnsOf s p) = none ∧
        ∃ result, (scan.execute s p).2 = .ok result ∧
          (scan.execute s p).1.stage = .reported) := by
  obtain ⟨warehouse, dialect, config, cap, stage, asked⟩ := scan
  cases hfresh
  have hlost := lost?_runPlan s ⟨warehouse, dialect, config, cap, .executing, asked⟩ p
  have hturns : turnsOf s ⟨warehouse, dialect, config, cap, .executing, asked⟩ p =
    turnsOf s ⟨warehouse, dialect, config, cap, .initialized, asked⟩ p := rfl
  rw [hturns] at hlost
  unfold execute conclude
  simp only [advance, ScanStage.next?, if_true, Except.bind, hlost]
  cases firstLoss? false (turnsOf s ⟨warehouse, dialect, config, cap, .initialized, asked⟩ p) with
  | some e => exact .inl ⟨e, rfl, rfl⟩
  | none => exact .inr ⟨rfl, _, rfl, rfl⟩

/-- A scan that has not begun has a result if the connection is not lost before a query
succeeded. -/
theorem exists_result_of_kept (hfresh : scan.stage = .initialized)
    (hkept : firstLoss? false (scan.turnsOf s p) = none) :
    ∃ result, (scan.execute s p).2 = .ok result := by
  rcases @execute_cases s scan p hfresh with ⟨e, hlost, _⟩ | ⟨_, result, hresult, _⟩
  · rw [hkept] at hlost
    cases hlost
  · exact ⟨result, hresult⟩

/-- The first condition that holds decides how a scan fails. -/
theorem run_of_isFirst (hfresh : scan.stage = .initialized) {c : FatalCondition}
    (h : c.IsFirst s scan) : ∃ e, (scan.run s).2 = .error e ∧ c.EndsIn e := by
  obtain ⟨hholds, hbefore⟩ := h
  cases c with
  | cancelled => exact run_of_cancelled hfresh hholds
  | undiscovered => exact run_of_undiscovered hfresh (hbefore cancelled (by decide)) hholds
  | unsound =>
    exact run_of_not_planned hfresh (hbefore cancelled (by decide))
      (hbefore undiscovered (by decide)) (.inl hholds)
  | unplannable =>
    exact run_of_not_planned hfresh (hbefore cancelled (by decide))
      (hbefore undiscovered (by decide)) (.inr hholds)
  | disconnected =>
    obtain ⟨rows, p, hanswer, hplan, hrun⟩ :=
      run_of_planned hfresh (hbefore cancelled (by decide)) (hbefore undiscovered (by decide))
        (hbefore unsound (by decide)) (hbefore unplannable (by decide))
    obtain ⟨rows', p', hanswer', hplan', hlost⟩ := hholds
    rw [hanswer] at hanswer'
    cases hanswer'
    rw [hplan] at hplan'
    cases hplan'
    have hsome := isSome_firstLoss?_iff.mpr hlost
    rw [hrun]
    rcases @execute_cases s scan.afterDiscovery p hfresh with
      ⟨e, hfirst, he⟩ | ⟨hnone, _⟩
    · exact ⟨e, he, exists_connection_of_firstLoss? hfirst⟩
    · rw [hnone] at hsome
      cases hsome

/-- A scan without a fatal condition reports. -/
theorem run_of_not_holds (hfresh : scan.stage = .initialized)
    (h : ∀ c : FatalCondition, ¬ c.Holds s scan) :
    ∃ result, (scan.run s).2 = .ok result ∧ (scan.run s).1.stage = .reported := by
  obtain ⟨rows, p, hanswer, hplan, hrun⟩ :=
    run_of_planned hfresh (h cancelled) (h undiscovered) (h unsound) (h unplannable)
  rw [hrun]
  rcases @execute_cases s scan.afterDiscovery p hfresh with
    ⟨e, hfirst, _⟩ | ⟨_, hreported⟩
  · have hlost := isSome_firstLoss?_iff.mp (Option.isSome_iff_exists.mpr ⟨e, hfirst⟩)
    exact absurd ⟨rows, p, hanswer, hplan, hlost⟩ (h disconnected)
  · exact hreported

/-- Only fatal conditions escape a scan that has not begun: it fails exactly if one of them holds,
with an error of the kind of the first that does, and otherwise it reports. -/
theorem run_fails_iff (hfresh : scan.stage = .initialized) :
    ((∃ e, (scan.run s).2 = .error e) ↔ ∃ c : FatalCondition, c.Holds s scan) ∧
      (∀ (c : FatalCondition) e, c.IsFirst s scan → (scan.run s).2 = .error e → c.EndsIn e) ∧
      ((∀ c : FatalCondition, ¬ c.Holds s scan) →
        ∃ result, (scan.run s).2 = .ok result ∧ (scan.run s).1.stage = .reported) := by
  refine ⟨⟨?_, ?_⟩, ?_, run_of_not_holds hfresh⟩
  · rintro ⟨e, he⟩
    by_contra hnone
    obtain ⟨result, hresult, _⟩ := run_of_not_holds hfresh (not_exists.mp hnone)
    rw [hresult] at he
    cases he
  · intro hsome
    obtain ⟨c, hfirst⟩ := exists_isFirst hsome
    obtain ⟨e, he, _⟩ := run_of_isFirst hfresh hfirst
    exact ⟨e, he⟩
  · intro c e hfirst he
    obtain ⟨e', he', hkind⟩ := run_of_isFirst hfresh hfirst
    rw [he] at he'
    cases he'
    exact hkind

end Scan

/-- A scan of a table of orders with one custom query. -/
def unreachableScan : Scan :=
  .ofConfiguration .postgreSQL
    { ScanConfiguration.ofTable "orders" with
      sqlMetrics := [{ SqlMetric.numeric "SELECT 1" with name := some "daily" }] }

/-- The answer about the columns of the table of orders. -/
def ordersSchema : Rows := ⟨["name", "type"], [[.text "id", .text "integer"]]⟩

/-- A session in which the connection is lost once the columns of the table are known. -/
def unreachableSession : Session where
  answer asked _ := if asked.isEmpty then .ok ordersSchema else .error (.connection "reset by peer")
  cancelAfter := none

/-- The scan of the table of orders fails because the connection is lost, and nothing else is
wrong. -/
theorem unreachableScan_fails :
    unreachableScan.stage = .initialized ∧
      FatalCondition.disconnected.IsFirst unreachableSession unreachableScan ∧
      ∃ cause, (unreachableScan.run unreachableSession).2 = .error (.connection cause) := by
  have hanswer : unreachableSession.answer unreachableScan.asked unreachableScan.columnsQuery =
      .ok ordersSchema := rfl
  have hsound : unreachableScan.config.error? = none := by decide +kernel
  have hplan : unreachableScan.plan ordersSchema.tableColumns = .ok _ :=
    Scan.plan_eq_ok_iff.mpr ⟨hsound, ScanConfiguration.plan_of_nothing rfl rfl rfl rfl⟩
  have hfirst : FatalCondition.disconnected.IsFirst unreachableSession unreachableScan := by
    refine ⟨⟨ordersSchema, _, hanswer, hplan, isSome_firstLoss?_iff.mp (by decide +kernel)⟩, ?_⟩
    intro b hb
    cases b with
    | cancelled => exact Bool.false_ne_true
    | undiscovered => exact List.cons_ne_nil _ _
    | unsound =>
      rintro ⟨e, he⟩
      rw [hsound] at he
      cases he
    | unplannable =>
      rintro ⟨rows, _, ⟨name, hname, _⟩ | ⟨percentage, e, hsample, _⟩⟩
      · cases hname
      · cases hsample
    | disconnected => exact absurd hb (by decide)
  obtain ⟨hiff, hkind, _⟩ := @Scan.run_fails_iff unreachableSession unreachableScan rfl
  obtain ⟨e, he⟩ := hiff.mpr ⟨_, hfirst.1⟩
  obtain ⟨cause, rfl⟩ := hkind _ e hfirst he
  exact ⟨rfl, hfirst, cause, he⟩

end DataQuality
