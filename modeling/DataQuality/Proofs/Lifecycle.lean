import DataQuality.Proofs.Cancellation

/-!
# The life of a scan

A scan may be called again and again, each time in another session. As long as no call gets as far
as a plan, the scan stays as it was and may be tried again. The first call that does closes it:
later calls are refused and ask nothing. So at most one call returns a result.
-/

namespace DataQuality

/-- How many stages come before one. -/
def ScanStage.rank (s : ScanStage) : Nat := all.idxOf s

/-- A call on a scan: the session that it is made in, and the columns if they are given. -/
structure ScanCall where
  session : Session
  given : Option (List TableColumn)

/-- A call together with the scan that it is made on. -/
structure ScanAttempt extends ScanCall where
  scan : Scan

namespace ScanAttempt

/-- The scan after the call. -/
def after (a : ScanAttempt) : Scan := (a.scan.call a.session a.given).1

/-- What the call returns. -/
def outcome (a : ScanAttempt) : Except ScanError ScanResult := (a.scan.call a.session a.given).2

/-- Whether the call returns a result. -/
def succeeds (a : ScanAttempt) : Bool := a.outcome.isOk

/-- The call gets past planning: it is not refused, there are columns, the configuration is sound,
and it can be planned for these columns. -/
def Plans (a : ScanAttempt) : Prop :=
  a.scan.refusal? a.session = none ∧ ∃ columns p,
    a.scan.columnsFor a.session a.given = .ok columns ∧ columns ≠ [] ∧ a.scan.plan columns = .ok p

/-- Nothing of the scan changes in the call but the queries that were asked. -/
def LeavesScan (a : ScanAttempt) : Prop := a.after = { a.scan with asked := a.after.asked }

/-- The call is refused since the scan ran before, and asks nothing. -/
def IsRefused (a : ScanAttempt) : Prop :=
  a.outcome = .error (.internal (.alreadyRan a.scan.config.tableName a.scan.stage)) ∧
    a.after = a.scan

end ScanAttempt

/-! ### One call -/

namespace Scan

variable {s : Session} {scan : Scan} {p : Plan} {given : Option (List TableColumn)}
  {columns : List TableColumn} {e : ScanError}

/-- A call is refused since the scan ran before, or since the user cancelled. -/
theorem refusal?_cases (h : scan.refusal? s = some e) :
    (scan.stage ≠ .initialized ∧
        e = .internal (.alreadyRan scan.config.tableName scan.stage)) ∨
      scan.stage = .initialized ∧ ∃ context, e = .cancelled context := by
  unfold refusal? at h
  dsimp only at h
  split at h
  · next hstage => exact .inl ⟨hstage, (Option.some.inj h).symm⟩
  · next hstage =>
    split at h
    · exact .inr ⟨not_not.mp hstage, _, (Option.some.inj h).symm⟩
    · cases h

/-- A scan that is not refused has not begun. -/
theorem stage_of_refusal? (h : scan.refusal? s = none) : scan.stage = .initialized := by
  by_contra hstage
  simp [refusal?, hstage] at h

/-- A call that is refused leaves the scan. -/
theorem call_of_refusal? (h : scan.refusal? s = some e) : scan.call s given = (scan, .error e) := by
  cases given with
  | none => simp [call, run, h]
  | some columns => simp [call, runGiven, h]

/-- A call that is not refused and has columns plans and runs the scan. -/
theorem call_of_columns (hgoing : scan.refusal? s = none)
    (hcolumns : scan.columnsFor s given = .ok columns) (hsome : columns ≠ []) :
    scan.call s given = (scan.informed given).runColumns s columns := by
  cases given with
  | none =>
    change scan.columnsOf (s.answer scan.asked scan.columnsQuery) = .ok columns at hcolumns
    rw [call, run, hgoing]
    dsimp only
    rw [hcolumns]
    rfl
  | some given =>
    obtain rfl := Except.ok.inj hcolumns
    have hgiven : ¬given.isEmpty := by simpa using hsome
    rw [call, runGiven, hgoing]
    exact if_neg hgiven

/-- An answer about the schema holds columns, or discovery fails. -/
theorem columnsOf_cases (scan : Scan) (answer : Except ScanError Rows) :
    (∃ columns, columns ≠ [] ∧ scan.columnsOf answer = .ok columns) ∨
      ∃ context, scan.columnsOf answer =
        .error (.schemaDiscovery scan.config.tableName context) := by
  cases answer with
  | error e => exact .inr ⟨_, rfl⟩
  | ok rows =>
    by_cases hnone : rows.tableColumns = []
    · exact .inr ⟨_, if_pos (List.isEmpty_iff.mpr hnone)⟩
    · exact .inl ⟨_, hnone, columnsOf_eq hnone⟩

/-- A call without columns fails. -/
theorem call_of_no_columns (hgoing : scan.refusal? s = none)
    (hnone : ∀ columns, scan.columnsFor s given = .ok columns → columns = []) :
    ∃ context, scan.call s given =
      (scan.informed given, .error (.schemaDiscovery scan.config.tableName context)) := by
  cases given with
  | none =>
    rcases scan.columnsOf_cases (s.answer scan.asked scan.columnsQuery) with
      ⟨columns, hsome, hcolumns⟩ | ⟨context, hcolumns⟩
    · exact absurd (hnone columns hcolumns) hsome
    · rw [call, run, hgoing]
      dsimp only
      rw [hcolumns]
      exact ⟨context, rfl⟩
  | some given =>
    obtain rfl := hnone given rfl
    rw [call, runGiven, hgoing]
    exact ⟨_, rfl⟩

/-- A run that is not reported on leaves the scan in the stage in which it ran. -/
theorem conclude_of_error {r : Run} (h : (scan.conclude p r).2 = .error e) :
    (scan.conclude p r).1 = scan := by
  unfold conclude at h ⊢
  split at h
  · rfl
  · split at h
    · cases h
    · rfl

/-- A scan that has not begun runs its plan. -/
theorem execute_of_fresh (hfresh : scan.stage = .initialized) :
    scan.execute s p =
      conclude { scan with stage := .executing, asked := (scan.runPlan s p).asked } p
        (scan.runPlan s p) := by
  have hplanned : scan.advance .planned = .ok { scan with stage := .planned } :=
    if_pos (by rw [hfresh]; rfl)
  have hexecuting : { scan with stage := .planned }.advance .executing =
      .ok { scan with stage := .executing } := if_pos rfl
  rw [execute, hplanned, Except.bind, hexecuting]
  rfl

/-- A scan whose plan is run is reported on, or has lost its connection on the way. -/
theorem execute_ends (hfresh : scan.stage = .initialized) :
    (∃ cause, (scan.execute s p).2 = .error (.connection cause) ∧
        (scan.execute s p).1.stage = .executing) ∨
      ∃ result, (scan.execute s p).2 = .ok result ∧ (scan.execute s p).1.stage = .reported := by
  rcases @execute_cases s scan p hfresh with ⟨e, hlost, herror⟩ | ⟨-, hresult⟩
  · obtain ⟨cause, rfl⟩ := exists_connection_of_firstLoss? hlost
    refine .inl ⟨cause, herror, ?_⟩
    rw [execute_of_fresh hfresh] at herror ⊢
    rw [conclude_of_error herror]
  · exact .inr hresult

end Scan

namespace ScanAttempt

variable {a : ScanAttempt}

/-- A call that gets past planning is the first to do so, and returns a result unless the connection
is lost. -/
theorem Plans.ends (h : a.Plans) :
    a.scan.stage = .initialized ∧
      ((∃ cause, a.outcome = .error (.connection cause) ∧ a.after.stage = .executing) ∨
        ∃ result, a.outcome = .ok result ∧ a.after.stage = .reported) := by
  obtain ⟨hgoing, columns, p, hcolumns, hsome, hplan⟩ := h
  have hfresh := Scan.stage_of_refusal? hgoing
  have hcall : a.scan.call a.session a.given = (a.scan.informed a.given).execute a.session p := by
    rw [Scan.call_of_columns hgoing hcolumns hsome, Scan.runColumns, Scan.plan_informed, hplan]
  have hinformed : (a.scan.informed a.given).stage = .initialized := by
    cases a.given <;> exact hfresh
  refine ⟨hfresh, ?_⟩
  rw [outcome, after, hcall]
  exact Scan.execute_ends hinformed

/-- A call that does not get past planning fails and leaves the scan. -/
theorem fails_of_not_plans (h : ¬a.Plans) :
    a.LeavesScan ∧ ∃ e, a.outcome = .error e ∧
      ∀ source target, e ≠ .internal (.invalidTransition source target) := by
  have hinformed : { a.scan with asked := (a.scan.informed a.given).asked } =
      a.scan.informed a.given := by
    cases a.given <;> rfl
  unfold LeavesScan outcome after
  cases hrefusal : a.scan.refusal? a.session with
  | some e =>
    rw [Scan.call_of_refusal? hrefusal]
    refine ⟨rfl, e, rfl, ?_⟩
    rcases Scan.refusal?_cases hrefusal with ⟨-, rfl⟩ | ⟨-, context, rfl⟩ <;> simp
  | none =>
    by_cases hcolumns : ∃ columns, a.scan.columnsFor a.session a.given = .ok columns ∧ columns ≠ []
    · obtain ⟨columns, hcolumns, hsome⟩ := hcolumns
      rw [Scan.call_of_columns hrefusal hcolumns hsome, Scan.runColumns, Scan.plan_informed]
      cases hplan : a.scan.plan columns with
      | ok p => exact absurd ⟨hrefusal, columns, p, hcolumns, hsome, hplan⟩ h
      | error e =>
        obtain ⟨message, rfl⟩ := Scan.exists_configuration_of_plan hplan
        exact ⟨hinformed.symm, _, rfl, by simp⟩
    · obtain ⟨context, hcall⟩ := Scan.call_of_no_columns hrefusal fun columns hfound ↦
        by_contra fun hsome ↦ hcolumns ⟨columns, hfound, hsome⟩
      rw [hcall]
      exact ⟨hinformed.symm, _, rfl, by simp⟩

theorem LeavesScan.stage_eq (h : a.LeavesScan) : a.after.stage = a.scan.stage := by
  rw [h]

/-- No call fails for a step between stages. -/
theorem outcome_ne_invalidTransition (a : ScanAttempt) (source target : ScanStage) :
    a.outcome ≠ .error (.internal (.invalidTransition source target)) := by
  intro houtcome
  by_cases h : a.Plans
  · obtain ⟨-, ⟨_, hends, -⟩ | ⟨_, hends, -⟩⟩ := h.ends <;>
      · rw [hends] at houtcome
        cases houtcome
  · obtain ⟨-, e, he, hne⟩ := fails_of_not_plans h
    rw [he] at houtcome
    exact hne source target (Except.error.inj houtcome)

/-- A scan that ran before is left alone. -/
theorem isRefused_of_stage (h : a.scan.stage ≠ .initialized) : a.IsRefused := by
  have hrefused : a.scan.refusal? a.session =
      some (.internal (.alreadyRan a.scan.config.tableName a.scan.stage)) := if_pos h
  rw [IsRefused, outcome, after, Scan.call_of_refusal? hrefused]
  exact ⟨rfl, rfl⟩

end ScanAttempt

/-! ### Many calls -/

namespace Scan

variable {scan : Scan}

/-- The calls one after the other, each on the scan that those before it left. -/
def attempts (scan : Scan) : List ScanCall → List ScanAttempt
  | [] => []
  | c :: rest => ⟨c, scan⟩ :: attempts (ScanAttempt.after ⟨c, scan⟩) rest

/-- The scan after all calls. -/
def afterCalls (scan : Scan) : List ScanCall → Scan
  | [] => scan
  | c :: rest => afterCalls (ScanAttempt.after ⟨c, scan⟩) rest

/-- The stages of the scan, before each call and in the end. -/
def stages (scan : Scan) : List ScanCall → List ScanStage
  | [] => [scan.stage]
  | c :: rest => scan.stage :: stages (ScanAttempt.after ⟨c, scan⟩) rest

end Scan

namespace ScanAttempt

variable {a : ScanAttempt}

/-- No call takes a scan back to an earlier stage. -/
theorem rank_le_rank_after (a : ScanAttempt) : a.scan.stage.rank ≤ a.after.stage.rank := by
  by_cases h : a.Plans
  · obtain ⟨hfresh, ⟨_, -, hstage⟩ | ⟨_, -, hstage⟩⟩ := h.ends
    all_goals
      rw [hfresh, hstage]
      decide
  · exact Nat.le_of_eq (by rw [(fails_of_not_plans h).1.stage_eq])

/-- A scan is fresh after a call exactly if it was before and the call did not get past planning. -/
theorem fresh_after_iff :
    a.after.stage = .initialized ↔ a.scan.stage = .initialized ∧ ¬a.Plans := by
  by_cases h : a.Plans
  · obtain ⟨-, ⟨_, -, hstage⟩ | ⟨_, -, hstage⟩⟩ := h.ends <;> simp [h, hstage]
  · rw [(fails_of_not_plans h).1.stage_eq]
    simp [h]

/-- A call that returns a result got past planning. -/
theorem plans_of_succeeds (h : a.succeeds = true) : a.Plans := by
  by_contra hplans
  obtain ⟨-, e, he, -⟩ := fails_of_not_plans hplans
  rw [succeeds, he] at h
  cases h

/-- A scan is reported on after a call exactly if it was before or the call returns a result. -/
theorem reported_after_iff :
    a.after.stage = .reported ↔ a.scan.stage = .reported ∨ a.succeeds = true := by
  by_cases h : a.Plans
  · obtain ⟨hfresh, ⟨_, houtcome, hstage⟩ | ⟨_, houtcome, hstage⟩⟩ := h.ends <;>
      simp [hfresh, hstage, succeeds, houtcome, Except.isOk, Except.toBool]
  · rw [(fails_of_not_plans h).1.stage_eq]
    have hfails : a.succeeds ≠ true := fun hsucceeds ↦ h (plans_of_succeeds hsucceeds)
    simp [hfails]

end ScanAttempt

namespace Scan

variable {scan : Scan}

/-- A scan that ran before refuses every call. -/
theorem isRefused_of_mem_attempts (h : scan.stage ≠ .initialized) (calls : List ScanCall) :
    ∀ a ∈ scan.attempts calls, a.IsRefused := by
  induction calls with
  | nil => simp [attempts]
  | cons c rest ih =>
    have hfirst := @ScanAttempt.isRefused_of_stage ⟨c, scan⟩ h
    rw [attempts, hfirst.2]
    exact List.forall_mem_cons.mpr ⟨hfirst, ih⟩

theorem pairwise_stages (scan : Scan) (calls : List ScanCall) :
    (∀ t ∈ scan.stages calls, scan.stage.rank ≤ t.rank) ∧
      (scan.stages calls).Pairwise fun s t ↦ s.rank ≤ t.rank := by
  induction calls generalizing scan with
  | nil => simp [stages]
  | cons c rest ih =>
    obtain ⟨hlater, hrest⟩ := ih (ScanAttempt.after ⟨c, scan⟩)
    have hnext := ScanAttempt.rank_le_rank_after ⟨c, scan⟩
    have hall : ∀ t ∈ stages (ScanAttempt.after ⟨c, scan⟩) rest, scan.stage.rank ≤ t.rank :=
      fun t ht ↦ Nat.le_trans hnext (hlater t ht)
    exact ⟨List.forall_mem_cons.mpr ⟨Nat.le_refl _, hall⟩, List.pairwise_cons.mpr ⟨hall, hrest⟩⟩

/-- A call that gets past planning is followed by refused ones only. -/
theorem pairwise_attempts (scan : Scan) (calls : List ScanCall) :
    (scan.attempts calls).Pairwise fun a b ↦ a.Plans → b.IsRefused := by
  induction calls generalizing scan with
  | nil => exact .nil
  | cons c rest ih =>
    refine List.pairwise_cons.mpr ⟨fun b hb hplans ↦ ?_, ih _⟩
    apply isRefused_of_mem_attempts _ rest b hb
    intro hfresh
    exact (ScanAttempt.fresh_after_iff.mp hfresh).2 hplans

theorem fresh_afterCalls_iff (scan : Scan) (calls : List ScanCall) :
    (scan.afterCalls calls).stage = .initialized ↔
      scan.stage = .initialized ∧ ∀ a ∈ scan.attempts calls, ¬a.Plans := by
  induction calls generalizing scan with
  | nil => simp [afterCalls, attempts]
  | cons c rest ih =>
    rw [afterCalls, attempts, ih, ScanAttempt.fresh_after_iff, List.forall_mem_cons, and_assoc]

theorem reported_afterCalls_iff (scan : Scan) (calls : List ScanCall) :
    (scan.afterCalls calls).stage = .reported ↔
      scan.stage = .reported ∨ ∃ a ∈ scan.attempts calls, a.succeeds = true := by
  induction calls generalizing scan with
  | nil => simp [afterCalls, attempts]
  | cons c rest ih =>
    rw [afterCalls, attempts, ih, ScanAttempt.reported_after_iff, or_assoc]
    simp

/-- Calls that do not get past planning leave everything but the queries that were asked. -/
theorem afterCalls_of_not_plans (scan : Scan) {calls : List ScanCall}
    (h : ∀ a ∈ scan.attempts calls, ¬a.Plans) :
    scan.afterCalls calls = { scan with asked := (scan.afterCalls calls).asked } := by
  induction calls generalizing scan with
  | nil => rfl
  | cons c rest ih =>
    obtain ⟨hfirst, hrest⟩ := List.forall_mem_cons.mp h
    have hleft : ScanAttempt.LeavesScan ⟨c, scan⟩ := (ScanAttempt.fails_of_not_plans hfirst).1
    rw [afterCalls, ih _ hrest]
    generalize (afterCalls _ rest).asked = asked
    rw [hleft]

/-- Of calls of which each that gets past planning is followed by refused ones only, at most one
returns a result. -/
theorem length_filter_succeeds_le {attempts : List ScanAttempt}
    (h : attempts.Pairwise fun a b ↦ a.Plans → b.IsRefused) :
    (attempts.filter ScanAttempt.succeeds).length ≤ 1 := by
  induction attempts with
  | nil => simp
  | cons a rest ih =>
    obtain ⟨hlater, hrest⟩ := List.pairwise_cons.mp h
    by_cases hsucceeds : a.succeeds = true
    · have hnone : rest.filter ScanAttempt.succeeds = [] := by
        rw [List.filter_eq_nil_iff]
        intro b hb
        have hrefused := hlater b hb (ScanAttempt.plans_of_succeeds hsucceeds)
        rw [ScanAttempt.succeeds, hrefused.1]
        exact Bool.false_ne_true
      rw [List.filter_cons_of_pos hsucceeds, hnone]
      exact Nat.le_refl 1
    · rw [List.filter_cons_of_neg hsucceeds]
      exact ih hrest

end Scan

/-- What is promised of any calls on a scan: at most one returns a result; the stages never go back;
one that does not get past planning fails and leaves the scan, which stays fresh as long as there is
no other; till then a further call gets past planning once nobody cancels and there are columns that
can be planned for; one that gets past planning closes the scan, so that later ones are refused and
ask nothing; the scan is reported on exactly if one returned a result; and none fails for a step
from one stage to another that is not the next. -/
structure Scan.RunsAtMostOnce (scan : Scan) (calls : List ScanCall) : Prop where
  results : ((scan.attempts calls).filter ScanAttempt.succeeds).length ≤ 1
  forward : (scan.stages calls).Pairwise fun s t ↦ s.rank ≤ t.rank
  retryable : ∀ a ∈ scan.attempts calls, ¬a.Plans → a.LeavesScan ∧ ∃ e, a.outcome = .error e
  fresh : (scan.afterCalls calls).stage = .initialized ↔ ∀ a ∈ scan.attempts calls, ¬a.Plans
  again : (∀ a ∈ scan.attempts calls, ¬a.Plans) → ∀ c : ScanCall,
    c.session.isCancelled (scan.afterCalls calls).asked = false → ∀ columns p,
      (scan.afterCalls calls).columnsFor c.session c.given = .ok columns → columns ≠ [] →
        scan.plan columns = .ok p → ScanAttempt.Plans ⟨c, scan.afterCalls calls⟩
  closed : (scan.attempts calls).Pairwise fun a b ↦ a.Plans → b.IsRefused
  reported : (scan.afterCalls calls).stage = .reported ↔
    ∃ a ∈ scan.attempts calls, a.succeeds = true
  transitions : ∀ a ∈ scan.attempts calls, ∀ source target,
    a.outcome ≠ .error (.internal (.invalidTransition source target))

/-- A scan that has not begun runs at most once, whatever calls are made on it in any sessions. -/
theorem Scan.runs_at_most_once {scan : Scan} (hfresh : scan.stage = .initialized)
    (calls : List ScanCall) : scan.RunsAtMostOnce calls where
  results := length_filter_succeeds_le (scan.pairwise_attempts calls)
  forward := (scan.pairwise_stages calls).2
  retryable := by
    intro a _ hplans
    obtain ⟨hleft, e, he, -⟩ := ScanAttempt.fails_of_not_plans hplans
    exact ⟨hleft, e, he⟩
  fresh := by rw [fresh_afterCalls_iff, and_iff_right hfresh]
  again := by
    intro hnone c hgoing columns p hcolumns hsome hplan
    have hleft := scan.afterCalls_of_not_plans hnone
    have hstage : (scan.afterCalls calls).stage = .initialized := by
      rw [hleft]
      exact hfresh
    refine ⟨by simp [refusal?, hstage, hgoing], columns, p, hcolumns, hsome, ?_⟩
    rw [hleft]
    exact hplan
  closed := scan.pairwise_attempts calls
  reported := by
    have hnotYet : scan.stage ≠ .reported := by simp [hfresh]
    rw [reported_afterCalls_iff, or_iff_right hnotYet]
  transitions := fun a _ ↦ a.outcome_ne_invalidTransition

/-- A call that the user cancels, one that runs the scan, and one that comes too late. -/
def auditCalls : List ScanCall :=
  [⟨(auditSession false).cancelledAfter 0, some auditColumns⟩,
    ⟨auditSession false, some auditColumns⟩, ⟨auditSession false, none⟩]

/-- Of three calls on the scan of the table of orders one returns a result. -/
theorem auditScan_runs_at_most_once :
    auditScan.stage = .initialized ∧ auditScan.RunsAtMostOnce auditCalls ∧
      (auditScan.afterCalls auditCalls).stage = .reported := by
  have honce : auditScan.RunsAtMostOnce auditCalls := Scan.runs_at_most_once rfl auditCalls
  refine ⟨rfl, honce, honce.reported.mpr ?_⟩
  have hplan : auditScan.plan auditColumns = .ok auditPlan :=
    Scan.plan_eq_ok_iff.mpr ⟨by decide +kernel, ScanConfiguration.plan_of_nothing rfl rfl rfl rfl⟩
  have hkept : (auditSession false).KeepsConnection := by
    rintro _ _ _ ⟨⟩
  obtain ⟨result, hresult⟩ := @Scan.exists_result _ auditScan auditPlan hkept rfl
  refine ⟨⟨⟨auditSession false, some auditColumns⟩, auditScan⟩, .tail _ (.head _), ?_⟩
  have hcolumns : auditScan.columnsFor (auditSession false) (some auditColumns) =
      .ok auditColumns := rfl
  have hcall : auditScan.call (auditSession false) (some auditColumns) =
      auditScan.execute (auditSession false) auditPlan := by
    rw [Scan.call_of_columns rfl hcolumns (List.cons_ne_nil _ _), Scan.runColumns,
      Scan.plan_informed, hplan]
    rfl
  rw [ScanAttempt.succeeds, ScanAttempt.outcome, hcall, hresult]
  rfl

end DataQuality
