import DataQuality.Proofs.FatalConditions
import DataQuality.Proofs.Isolation

/-!
# Cancellation

When the user cancels during a query, the run is cut between two groups. Those that had their turn
before are answered and recorded as if nobody had cancelled; every later one is skipped as a whole
and asks nothing. Which group comes first after the cut is settled by the queries asked so far, so
groups that ask nothing do not move the cut.
-/

namespace DataQuality

/-- The session in which the user cancels once a number of queries has been asked. -/
def Session.cancelledAfter (s : Session) (k : Nat) : Session := { s with cancelAfter := some k }

/-! ### Turns -/

/-- The turn of a group after the user has cancelled: each of its bindings is skipped, and nothing
is asked. -/
def QueryGroup.cancelledTurn (g : QueryGroup) : Turn where
  outcome := ⟨g.id, g.label,
    g.bindings.map fun b ↦ ⟨b.key, .skipped "scan cancelled", b.internal⟩, none⟩
  cancelled := true

/-- A turn in which a group ran, whatever had been measured and whatever was answered. -/
def QueryGroup.Ran (w : Warehouse) (g : QueryGroup) (t : Turn) : Prop :=
  ∃ answer measured, t = ⟨g.run w answer measured, false⟩

/-- The turns of groups of which only the first `m` run: these are as in the whole run, and all
others are cancelled. -/
def cutTurns (gs : List QueryGroup) (m : Nat) (ts : List Turn) : List Turn :=
  ts.take m ++ (gs.drop m).map QueryGroup.cancelledTurn

/-- The turns `ts` of groups that all run are cut after the first `m`: these are the groups before
whose turn fewer than `k` queries had been asked, counting those asked before all of them. -/
structure CutAt (w : Warehouse) (k : Nat) (asked : List String) (gs : List QueryGroup) (m : Nat)
    (ts : List Turn) : Prop where
  le : m ≤ gs.length
  ran : List.Forall₂ (QueryGroup.Ran w) gs ts
  boundary : ∀ i < gs.length,
    i < m ↔ (asked ++ (ts.take i).flatMap Turn.asked).length < k

namespace CutAt

theorem nil {w : Warehouse} {k : Nat} {asked : List String} : CutAt w k asked [] 0 [] :=
  ⟨Nat.le_refl 0, .nil, fun _ hi ↦ absurd hi (Nat.not_lt_zero _)⟩

variable {w : Warehouse} {k m : Nat} {asked : List String} {g : QueryGroup}
  {gs hs : List QueryGroup} {t : Turn} {ts us : List Turn}

/-- If enough queries were asked before, every group comes too late. -/
theorem zero (hran : List.Forall₂ (QueryGroup.Ran w) gs ts) (hk : k ≤ asked.length) :
    CutAt w k asked gs 0 ts where
  le := Nat.zero_le _
  ran := hran
  boundary := by
    intro i _
    rw [List.length_append]
    omega

/-- A group that comes in time is followed by those that come in time after its query. -/
theorem cons (hran : g.Ran w t) (hk : asked.length < k)
    (h : CutAt w k (asked ++ t.asked) gs m ts) : CutAt w k asked (g :: gs) (m + 1) (t :: ts) where
  le := Nat.succ_le_succ h.le
  ran := .cons hran h.ran
  boundary := by
    intro i hi
    cases i with
    | zero => simpa using hk
    | succ i =>
      rw [List.take_succ_cons, List.flatMap_cons, ← List.append_assoc, Nat.add_lt_add_iff_right]
      exact h.boundary i (Nat.lt_of_succ_lt_succ hi)

/-- Groups that all come in time are followed by those that come in time after their queries. -/
theorem append (h : CutAt w k asked gs gs.length ts)
    (h' : CutAt w k (asked ++ ts.flatMap Turn.asked) hs m us) :
    CutAt w k asked (gs ++ hs) (gs.length + m) (ts ++ us) where
  le := by
    have hle := h'.le
    rw [List.length_append]
    omega
  ran := List.rel_append h.ran h'.ran
  boundary := by
    intro i hi
    have hlength := h.ran.length_eq
    rw [List.length_append] at hi
    by_cases hfirst : i < gs.length
    · rw [List.take_append_of_le_length (by omega), ← h.boundary i hfirst]
      omega
    · rw [List.take_append, List.take_of_length_le (by omega), List.flatMap_append,
        ← List.append_assoc, ← h'.boundary _ (by omega)]
      omega

/-- After the first group that comes too late, all come too late. -/
theorem append_of_lt (h : CutAt w k asked gs m ts) (hm : m < gs.length)
    (hran : List.Forall₂ (QueryGroup.Ran w) hs us) : CutAt w k asked (gs ++ hs) m (ts ++ us) where
  le := by
    rw [List.length_append]
    omega
  ran := List.rel_append h.ran hran
  boundary := by
    intro i _
    have hlength := h.ran.length_eq
    by_cases hfirst : i < gs.length
    · rw [List.take_append_of_le_length (by omega)]
      exact h.boundary i hfirst
    · -- By then at least the queries before the first late group have been asked.
      have hlate := (h.boundary m hm).not.mp (Nat.lt_irrefl m)
      have hbefore : (ts ++ us).take i = ts.take m ++ (ts.drop m ++ us.take (i - ts.length)) := by
        rw [← List.append_assoc, List.take_append_drop, List.take_append,
          List.take_of_length_le (by omega)]
      rw [hbefore]
      simp only [List.flatMap_append, List.length_append] at hlate ⊢
      omega

end CutAt

namespace Session

variable {s : Session} {w : Warehouse} {measured : MeasurementSet} {k : Nat}

@[simp] theorem isCancelled_cancelledAfter (asked : List String) :
    (s.cancelledAfter k).isCancelled asked = decide (k ≤ asked.length) := rfl

/-- Once the user has cancelled, every group is skipped. -/
theorem allTurns_of_isCancelled {asked : List String} (h : s.isCancelled asked = true)
    (gs : List QueryGroup) :
    s.allTurns w measured asked gs = gs.map QueryGroup.cancelledTurn := by
  induction gs with
  | nil => rfl
  | cons g rest ih =>
    have hturn : s.turn w measured asked g = g.cancelledTurn := if_pos h
    have hasked : asked ++ g.cancelledTurn.asked = asked := List.append_nil asked
    rw [allTurns, hturn, hasked, ih, List.map_cons]

/-- As long as the user has not cancelled, a group runs in its turn. -/
theorem turn_of_running {asked : List String} (h : s.isCancelled asked = false) (g : QueryGroup) :
    s.turn w measured asked g = ⟨g.run w (s.answer asked) measured, false⟩ :=
  if_neg (by simp [h])

/-- If the user never cancels, every group runs. -/
theorem ran_allTurns (hnever : s.cancelAfter = none) (asked : List String) (gs : List QueryGroup) :
    List.Forall₂ (QueryGroup.Ran w) gs (s.allTurns w measured asked gs) := by
  induction gs generalizing asked with
  | nil => exact .nil
  | cons g rest ih =>
    have hrunning : s.isCancelled asked = false := by simp [isCancelled, hnever]
    exact .cons ⟨s.answer asked, measured, turn_of_running hrunning g⟩ (ih _)

/-- To cancel is to cut the turns of groups between two of them. -/
theorem exists_cut (hnever : s.cancelAfter = none) (k : Nat) (asked : List String)
    (gs : List QueryGroup) :
    ∃ m, CutAt w k asked gs m (s.allTurns w measured asked gs) ∧
      (s.cancelledAfter k).allTurns w measured asked gs =
        cutTurns gs m (s.allTurns w measured asked gs) := by
  induction gs generalizing asked with
  | nil => exact ⟨0, .nil, rfl⟩
  | cons g rest ih =>
    by_cases hk : asked.length < k
    · have hrunning : s.isCancelled asked = false := by simp [isCancelled, hnever]
      have hstill : (s.cancelledAfter k).isCancelled asked = false := by simpa using hk
      have hsame : (s.cancelledAfter k).turn w measured asked g = s.turn w measured asked g :=
        (turn_of_running hstill g).trans (turn_of_running hrunning g).symm
      obtain ⟨m, hcut, hturns⟩ := ih (asked ++ (s.turn w measured asked g).asked)
      refine ⟨m + 1, .cons ⟨s.answer asked, measured, turn_of_running hrunning g⟩ hk hcut, ?_⟩
      rw [allTurns, allTurns, hsame, hturns]
      rfl
    · refine ⟨0, .zero (ran_allTurns hnever asked _) (by omega), ?_⟩
      exact allTurns_of_isCancelled (by simpa using hk) _

end Session

/-! ### Runs -/

section

variable {w : Warehouse} {k m : Nat} {gs hs : List QueryGroup} {ts us : List Turn}

/-- When all groups of a part come in time, the cut is made in the rest. -/
theorem cutTurns_append (h : ts.length = gs.length) :
    cutTurns (gs ++ hs) (gs.length + m) (ts ++ us) = ts ++ cutTurns hs m us := by
  unfold cutTurns
  rw [← h, List.take_length_add_append, h, List.drop_length_add_append, List.append_assoc]

/-- When a group of a part comes too late, so do all groups of the rest. -/
theorem cutTurns_append_of_le (h : ts.length = gs.length) (hm : m ≤ gs.length) :
    cutTurns (gs ++ hs) m (ts ++ us) = cutTurns gs m ts ++ hs.map QueryGroup.cancelledTurn := by
  unfold cutTurns
  rw [List.take_append_of_le_length (by omega), List.drop_append_of_le_length hm, List.map_append,
    List.append_assoc]

/-- Where every group comes in time, nothing is cut. -/
theorem cutTurns_length (h : ts.length = gs.length) : cutTurns gs gs.length ts = ts := by
  unfold cutTurns
  rw [← h, List.take_length, h, List.drop_length, List.map_nil, List.append_nil]

/-- Only the groups before the cut ask anything. -/
theorem asked_cutTurns :
    (cutTurns gs m ts).flatMap Turn.asked = (ts.take m).flatMap Turn.asked := by
  unfold cutTurns
  rw [List.flatMap_append, List.flatMap_map]
  simp [QueryGroup.cancelledTurn, Turn.asked]

/-- Only the groups before the cut are timed. -/
theorem timings_cutTurns : (cutTurns gs m ts).filterMap (fun t ↦ t.outcome.timing?) =
    (ts.take m).filterMap fun t ↦ t.outcome.timing? := by
  unfold cutTurns
  rw [List.filterMap_append, List.filterMap_map]
  have hnone : (gs.drop m).filterMap ((fun t : Turn ↦ t.outcome.timing?) ∘
      QueryGroup.cancelledTurn) = [] := List.filterMap_eq_nil_iff.mpr fun _ _ ↦ rfl
  rw [hnone, List.append_nil]

end

namespace Run

variable {s : Session} {w : Warehouse} {p : Plan} {k : Nat}

theorem asked_take (r : Run) (ts : List Turn) :
    (r.take ts).asked = r.asked ++ ts.flatMap Turn.asked := by
  simp [asked, take]

/-- Once the user has cancelled, every group of every phase is skipped. -/
theorem takePhases_of_isCancelled {r : Run} (h : s.isCancelled r.asked = true)
    (phases : List Phase) :
    r.takePhases s w p phases =
      r.take ((phases.flatMap p.groupsIn).map QueryGroup.cancelledTurn) := by
  induction phases generalizing r with
  | nil => exact (take_nil r).symm
  | cons phase rest ih =>
    have hphase : r.takeAll s w (p.groupsIn phase) =
        r.take ((p.groupsIn phase).map QueryGroup.cancelledTurn) := by
      rw [takeAll, Session.allTurns_of_isCancelled h]
    have hstill : s.isCancelled (r.takeAll s w (p.groupsIn phase)).asked = true := by
      rw [hphase, asked_take]
      exact s.isCancelled_append h _
    change (r.takeAll s w (p.groupsIn phase)).takePhases s w p rest = _
    rw [ih hstill, hphase, take_take, List.flatMap_cons, List.map_append]

/-- If the user never cancels, every group of every phase runs. -/
theorem exists_takePhases_ran (hnever : s.cancelAfter = none) (r : Run) (phases : List Phase) :
    ∃ ts, r.takePhases s w p phases = r.take ts ∧
      List.Forall₂ (QueryGroup.Ran w) (phases.flatMap p.groupsIn) ts := by
  induction phases generalizing r with
  | nil => exact ⟨[], (take_nil r).symm, .nil⟩
  | cons phase rest ih =>
    let turns := s.allTurns w r.ledger.measurements r.asked (p.groupsIn phase)
    obtain ⟨ts, hrun, hran⟩ := ih (r.take turns)
    refine ⟨turns ++ ts, ?_, List.rel_append (Session.ran_allTurns hnever r.asked _) hran⟩
    rw [← take_take]
    exact hrun

/-- To cancel is to cut a run of phases between two of its groups. -/
theorem exists_cut (hnever : s.cancelAfter = none) (k : Nat) (r : Run) (phases : List Phase) :
    ∃ m ts, CutAt w k r.asked (phases.flatMap p.groupsIn) m ts ∧
      r.takePhases s w p phases = r.take ts ∧
      r.takePhases (s.cancelledAfter k) w p phases =
        r.take (cutTurns (phases.flatMap p.groupsIn) m ts) := by
  induction phases generalizing r with
  | nil => exact ⟨0, [], .nil, (take_nil r).symm, (take_nil r).symm⟩
  | cons phase rest ih =>
    let turns := s.allTurns w r.ledger.measurements r.asked (p.groupsIn phase)
    obtain ⟨m, hcut, hturns⟩ : ∃ m, CutAt w k r.asked (p.groupsIn phase) m turns ∧
        (s.cancelledAfter k).allTurns w r.ledger.measurements r.asked (p.groupsIn phase) =
          cutTurns (p.groupsIn phase) m turns := Session.exists_cut hnever k r.asked _
    have hlength : turns.length = (p.groupsIn phase).length := hcut.ran.length_eq.symm
    have hphase : r.takeAll (s.cancelledAfter k) w (p.groupsIn phase) =
        r.take (cutTurns (p.groupsIn phase) m turns) := by
      rw [takeAll, hturns]
    rw [List.flatMap_cons]
    change ∃ m ts, _ ∧ (r.take turns).takePhases s w p rest = _ ∧
      (r.takeAll (s.cancelledAfter k) w (p.groupsIn phase)).takePhases (s.cancelledAfter k) w p
        rest = _
    rcases Nat.lt_or_ge m (p.groupsIn phase).length with hlt | hge
    · obtain ⟨ts, hrun, hran⟩ := exists_takePhases_ran (p := p) (w := w) hnever (r.take turns) rest
      refine ⟨m, turns ++ ts, hcut.append_of_lt hlt hran, ?_, ?_⟩
      · rw [hrun, take_take]
      · have hlate := (hcut.boundary m hlt).not.mp (Nat.lt_irrefl m)
        have hstopped : (s.cancelledAfter k).isCancelled
            (r.take (cutTurns (p.groupsIn phase) m turns)).asked = true := by
          rw [asked_take, asked_cutTurns, Session.isCancelled_cancelledAfter]
          exact decide_eq_true (Nat.not_lt.mp hlate)
        rw [hphase, takePhases_of_isCancelled hstopped, take_take,
          cutTurns_append_of_le hlength hcut.le]
    · obtain rfl : m = (p.groupsIn phase).length := Nat.le_antisymm hcut.le hge
      rw [cutTurns_length hlength] at hphase
      obtain ⟨m, ts, hrest, hrun, hrun'⟩ := ih (r.take turns)
      rw [asked_take] at hrest
      refine ⟨_, turns ++ ts, hcut.append hrest, ?_, ?_⟩
      · rw [hrun, take_take]
      · rw [hphase, hrun', take_take, cutTurns_append hlength]

end Run

/-! ### Reports -/

/-- A plan of which only the first `m` groups came in time, with the whole run and the run that was
cut: what these groups measure is the same in the end, and what only others measure is skipped. -/
structure Plan.CutShort (p : Plan) (m : Nat) (whole cut : Run) : Prop where
  kept : ∀ g ∈ p.groups.take m, ∀ key ∈ g.keys,
    (cut.ledger.derive p.derived).measurements.get? key =
      (whole.ledger.derive p.derived).measurements.get? key
  skipped : ∀ g ∈ p.groups.drop m, ∀ key ∈ g.keys, key ≠ .ofTable schemaMetric →
    (∀ h ∈ p.groups.take m, key ∉ h.keys) →
      ∃ internal, (cut.ledger.derive p.derived).measurements.get? key =
        some ⟨key, .skipped "scan cancelled", internal⟩

/-- Groups that run measure their keys in order. -/
theorem map_key_of_ran {w : Warehouse} {gs : List QueryGroup} {ts : List Turn}
    (h : List.Forall₂ (QueryGroup.Ran w) gs ts) :
    (ts.flatMap fun t ↦ t.outcome.measurements).map Measurement.key =
      gs.flatMap fun g ↦ g.keys := by
  induction h with
  | nil => rfl
  | @cons g t _ _ hran _ ih =>
    obtain ⟨answer, measured, rfl⟩ := hran
    rw [List.flatMap_cons, List.flatMap_cons, List.map_append, ih, g.keys_run]

/-- Groups that run are not cancelled. -/
theorem any_cancelled_of_ran {w : Warehouse} {gs : List QueryGroup} {ts : List Turn}
    (h : List.Forall₂ (QueryGroup.Ran w) gs ts) : ts.any Turn.cancelled = false := by
  induction h with
  | nil => rfl
  | cons hran _ ih =>
    obtain ⟨answer, measured, rfl⟩ := hran
    exact ih

/-- Of groups that are all cancelled, whatever one of them binds is found to be skipped. -/
theorem exists_find?_cancelled {gs : List QueryGroup} {g : QueryGroup} (hg : g ∈ gs)
    {key : MetricKey} (hkey : key ∈ g.keys) :
    ∃ internal, ((gs.map QueryGroup.cancelledTurn).flatMap fun t ↦ t.outcome.measurements).find?
      (fun n ↦ n.key = key) = some ⟨key, .skipped "scan cancelled", internal⟩ := by
  rw [List.flatMap_map]
  cases hfind : (gs.flatMap fun g ↦ g.cancelledTurn.outcome.measurements).find?
      fun n ↦ n.key = key with
  | none =>
    obtain ⟨b, hb, rfl⟩ := List.mem_map.mp hkey
    have habsent := List.find?_eq_none.mp hfind _
      (List.mem_flatMap.mpr ⟨g, hg, List.mem_map_of_mem hb⟩)
    simp at habsent
  | some n =>
    obtain ⟨h, _, hn⟩ := List.mem_flatMap.mp (List.mem_of_find?_eq_some hfind)
    obtain ⟨b, _, rfl⟩ := List.mem_map.mp hn
    have hsame : b.key = key := by simpa using List.find?_some hfind
    exact ⟨b.internal, by rw [hsame]⟩

namespace CutAt

variable {w : Warehouse} {k m : Nat} {asked : List String} {gs : List QueryGroup} {ts : List Turn}

/-- A run that is cut is marked as cancelled exactly if a group comes too late. -/
theorem any_cancelled_iff (h : CutAt w k asked gs m ts) :
    (cutTurns gs m ts).any Turn.cancelled = true ↔ m < gs.length := by
  have hran := any_cancelled_of_ran (List.forall₂_take m h.ran)
  have hlate : ((gs.drop m).map QueryGroup.cancelledTurn).any Turn.cancelled =
      (gs.drop m).any fun _ ↦ true := List.any_map
  unfold cutTurns
  rw [List.any_append, hran, Bool.false_or, hlate]
  cases hdrop : gs.drop m with
  | nil => simpa using List.drop_eq_nil_iff.mp hdrop
  | cons g rest =>
    have hlength := congrArg List.length hdrop
    rw [List.length_drop, List.length_cons] at hlength
    simp only [List.any_cons, Bool.true_or, true_iff]
    omega

/-- What comes in time is recorded in both runs, and all else is skipped in the one that is cut. -/
theorem cutShort {p : Plan} {start : Run} (h : CutAt w k asked p.groups m ts)
    (hstart : ∀ key, key ≠ .ofTable schemaMetric → start.ledger.measurements.get? key = none) :
    p.CutShort m (start.take ts) (start.take (cutTurns p.groups m ts)) := by
  -- Both runs record the same up to the cut.
  let early := start.ledger.recordAll ((ts.take m).flatMap fun t ↦ t.outcome.measurements)
  have hwhole : (start.take ts).ledger =
      early.recordAll ((ts.drop m).flatMap fun t ↦ t.outcome.measurements) := by
    rw [← Ledger.recordAll_append, ← List.flatMap_append, List.take_append_drop]
    rfl
  have hcut : (start.take (cutTurns p.groups m ts)).ledger =
      early.recordAll (((p.groups.drop m).map QueryGroup.cancelledTurn).flatMap fun t ↦
        t.outcome.measurements) := by
    rw [← Ledger.recordAll_append, ← List.flatMap_append]
    rfl
  have hearly : ∀ {key}, key ∈ ((ts.take m).flatMap fun t ↦ t.outcome.measurements).map
      Measurement.key ↔ ∃ g ∈ p.groups.take m, key ∈ g.keys := by
    intro key
    rw [map_key_of_ran (List.forall₂_take m h.ran), List.mem_flatMap]
  constructor
  · intro g hg key hkey
    have hcontains : early.measurements.contains key = true :=
      Ledger.contains_recordAll.mpr (.inr (hearly.mpr ⟨g, hg, hkey⟩))
    have hkept : ∀ ms, ((early.recordAll ms).derive p.derived).measurements.get? key =
        early.measurements.get? key := by
      intro ms
      have hstill : (early.recordAll ms).measurements.contains key = true :=
        Ledger.contains_recordAll.mpr (.inl hcontains)
      rw [Ledger.derive_eq_recordAll, Ledger.get?_recordAll_of_contains hstill,
        Ledger.get?_recordAll_of_contains hcontains]
    rw [hwhole, hcut, hkept, hkept]
  · intro g hg key hkey hschema hlate
    have hnone : early.measurements.get? key = none := by
      rw [Ledger.get?_recordAll, hstart key hschema, Option.none_or, List.find?_eq_none]
      intro n hn hsame
      obtain ⟨h', hh', hmem⟩ := hearly.mp (List.mem_map_of_mem hn)
      rw [of_decide_eq_true hsame] at hmem
      exact hlate h' hh' hmem
    obtain ⟨internal, hfound⟩ := exists_find?_cancelled hg hkey
    refine ⟨internal, ?_⟩
    rw [hcut, Ledger.derive_eq_recordAll, Ledger.get?_recordAll, Ledger.get?_recordAll, hnone,
      Option.none_or, hfound, Option.some_or]

end CutAt

/-- A cancelled result is an error and exits with two. -/
theorem ScanResult.exitCode_of_cancelled {r : ScanResult} (h : r.cancelled = true) :
    r.status = .error ∧ r.summary.exitCode = 2 := by
  have hstatus : r.status = .error := by
    have hdefective : r.isDefective = true := by simp [isDefective, h]
    rw [status, if_pos hdefective]
  exact ⟨hstatus, if_pos (.inl hstatus)⟩

namespace Scan

variable {s : Session} {scan : Scan} {given : Option (List TableColumn)} {result : ScanResult}

/-- A call on a scan: its columns are given, or else found out. -/
def call (s : Session) (scan : Scan) :
    Option (List TableColumn) → Scan × Except ScanError ScanResult
  | some columns => scan.runGiven s columns
  | none => scan.run s

/-- The columns that a call is about. -/
def columnsFor (s : Session) (scan : Scan) :
    Option (List TableColumn) → Except ScanError (List TableColumn)
  | some columns => .ok columns
  | none => scan.columnsOf (s.answer scan.asked scan.columnsQuery)

/-- The scan once the columns of a call are known; to find them out takes a query. -/
def informed (scan : Scan) : Option (List TableColumn) → Scan
  | some _ => scan
  | none => scan.afterDiscovery

/-- Before the first turn only the columns of the table are recorded. -/
theorem get?_begun {p : Plan} {key : MetricKey} (h : key ≠ .ofTable schemaMetric) :
    (scan.begun p).ledger.measurements.get? key = none := by
  change (Ledger.empty.recordAll _).measurements.get? key = none
  rw [Ledger.get?_recordAll]
  simp [Ledger.empty, MeasurementSet.empty, MeasurementSet.get?, h.symm]

@[simp] theorem dialect_informed : (scan.informed given).dialect = scan.dialect := by
  cases given <;> rfl

@[simp] theorem plan_informed (columns : List TableColumn) :
    (scan.informed given).plan columns = scan.plan columns := by
  cases given <;> rfl

@[simp] theorem report_informed (p : Plan) : (scan.informed given).report p = scan.report p := by
  cases given <;> rfl

/-- As long as the user does not cancel, a run that comes to its end is not cancelled. -/
theorem cancelled_runPlan {p : Plan} (hnever : s.cancelAfter = none)
    (hkept : (scan.runPlan s p).lost? = none) : (scan.runPlan s p).cancelled = false := by
  obtain ⟨ts, hrun, hran⟩ := Run.exists_takePhases_ran hnever (scan.begun p) Phase.all
  rw [runPlan_of_lost? hkept, hrun]
  exact any_cancelled_of_ran hran

/-- A call with a result is about columns that are known. -/
theorem call_eq_runColumns (h : (scan.call s given).2 = .ok result) :
    ∃ columns, scan.columnsFor s given = .ok columns ∧
      scan.call s given = (scan.informed given).runColumns s columns := by
  cases given with
  | some columns =>
    refine ⟨columns, rfl, ?_⟩
    change (scan.runGiven s columns).2 = _ at h
    change scan.runGiven s columns = _
    unfold runGiven at h ⊢
    split at h
    · cases h
    · split at h
      · cases h
      · next hsome => exact if_neg hsome
  | none =>
    change (scan.run s).2 = _ at h
    change ∃ columns, scan.columnsOf _ = _ ∧ scan.run s = _
    unfold run at h ⊢
    split at h
    · cases h
    · cases hcolumns : scan.columnsOf (s.answer scan.asked scan.columnsQuery) with
      | error e => simp [hcolumns] at h
      | ok columns =>
        refine ⟨columns, rfl, ?_⟩
        simp only [hcolumns]
        rfl

/-- A call with a result runs the plan for its columns. -/
theorem call_eq_execute (h : (scan.call s given).2 = .ok result) :
    ∃ columns p, scan.columnsFor s given = .ok columns ∧ scan.plan columns = .ok p ∧
      scan.call s given = (scan.informed given).execute s p := by
  obtain ⟨columns, hcolumns, hcall⟩ := call_eq_runColumns h
  rw [hcall] at h
  unfold runColumns at h hcall
  rw [plan_informed] at h hcall
  cases hplan : scan.plan columns with
  | error e => simp [hplan] at h
  | ok p =>
    rw [hplan] at hcall
    exact ⟨columns, p, hcolumns, hplan, hcall⟩

/-- Two results for a plan, the first of a run in which every group had its turn, with the turns
`ts`, and the second of one that is cut after the first `m` groups. They report on the same turns up
to the cut. Only the second is cancelled, and only if a group came too late; then it is an error. -/
structure CutResults (scan : Scan) (k : Nat) (p : Plan) (start : Run) (m : Nat) (ts : List Turn)
    (result result' : ScanResult) : Prop where
  boundary : CutAt scan.dialect k start.asked p.groups m ts
  whole : result = scan.report p (start.take ts) ((start.take ts).ledger.derive p.derived)
  cut : result' = scan.report p (start.take (cutTurns p.groups m ts))
    ((start.take (cutTurns p.groups m ts)).ledger.derive p.derived)
  measured : p.CutShort m (start.take ts) (start.take (cutTurns p.groups m ts))
  timings : result'.timings = (ts.take m).filterMap fun t ↦ t.outcome.timing?
  finished : result.cancelled = false
  cancelled : result'.cancelled = true ↔ m < p.groups.length
  error : result'.cancelled = true → result'.status = .error ∧ result'.summary.exitCode = 2

/-- To cancel during the query number `k` is to cut the run between two groups: those before whose
turn fewer queries were asked are measured and timed as if nobody had cancelled, and all others are
skipped as a whole and ask nothing. The result is cancelled exactly if a group came too late, and
then it is an error that exits with two. -/
theorem cancellation_cuts_run {k : Nat} {result' : ScanResult} (hnever : s.cancelAfter = none)
    (hresult : (scan.call s given).2 = .ok result)
    (hresult' : (scan.call (s.cancelledAfter k) given).2 = .ok result') :
    ∃ (columns : List TableColumn) (p : Plan) (m : Nat) (ts : List Turn),
      scan.columnsFor s given = .ok columns ∧ scan.plan columns = .ok p ∧
      let start := (scan.informed given).begun p
      scan.CutResults k p start m ts result result' ∧
      (scan.call s given).1.asked = (start.take ts).asked ∧
      (scan.call (s.cancelledAfter k) given).1.asked = (start.take (ts.take m)).asked := by
  obtain ⟨columns, p, hcolumns, hplan, hcall⟩ := call_eq_execute hresult
  obtain ⟨columns', p', hcolumns', hplan', hcall'⟩ := call_eq_execute hresult'
  have hsame : scan.columnsFor (s.cancelledAfter k) given = scan.columnsFor s given := by
    cases given <;> rfl
  rw [hsame, hcolumns] at hcolumns'
  cases hcolumns'
  rw [hplan] at hplan'
  cases hplan'
  rw [hcall] at hresult ⊢
  rw [hcall'] at hresult' ⊢
  have hgroups : Phase.all.flatMap p.groupsIn = p.groups := by
    obtain ⟨_, source, _, rfl⟩ := ScanConfiguration.plan_eq_ok_iff.mp (plan_eq_ok_iff.mp hplan).2
    exact Draft.flatMap_groupsIn _
  obtain ⟨m, ts, hcut, hr, hr'⟩ := Run.exists_cut (w := scan.dialect) (p := p) hnever k
    ((scan.informed given).begun p) Phase.all
  rw [hgroups] at hcut hr'
  obtain ⟨hlost, hreport⟩ := of_execute hresult
  obtain ⟨hlost', hreport'⟩ := of_execute hresult'
  have hasked := asked_execute hresult
  have hasked' := asked_execute hresult'
  rw [runPlan_of_lost? hlost, dialect_informed, hr] at hreport hasked
  rw [runPlan_of_lost? hlost', dialect_informed, hr'] at hreport' hasked'
  rw [report_informed] at hreport hreport'
  refine ⟨columns, p, m, ts, hcolumns, hplan, ?_, hasked, ?_⟩
  · refine ⟨hcut, hreport, hreport', hcut.cutShort fun key ↦ get?_begun, ?_, ?_, ?_,
      ScanResult.exitCode_of_cancelled⟩
    · rw [hreport']
      exact timings_cutTurns
    · rw [hreport]
      exact any_cancelled_of_ran hcut.ran
    · rw [hreport']
      exact hcut.any_cancelled_iff
  · rw [hasked', Run.asked_take, Run.asked_take, asked_cutTurns]

end Scan

/-- When the user cancels during the first of two custom queries, the scan of the table of orders is
cut between them. -/
theorem auditScan_cancellation_cuts_run :
    let s := auditSession false
    let given := some auditColumns
    s.cancelAfter = none ∧
      ∃ result result', (auditScan.call s given).2 = .ok result ∧
        (auditScan.call (s.cancelledAfter 1) given).2 = .ok result' ∧ result'.cancelled = true ∧
        ∃ (columns : List TableColumn) (p : Plan) (m : Nat) (ts : List Turn),
          auditScan.columnsFor s given = .ok columns ∧ auditScan.plan columns = .ok p ∧
          let start := (auditScan.informed given).begun p
          auditScan.CutResults 1 p start m ts result result' ∧
          (auditScan.call s given).1.asked = (start.take ts).asked ∧
          (auditScan.call (s.cancelledAfter 1) given).1.asked = (start.take (ts.take m)).asked := by
  intro s given
  have hplan : auditScan.plan auditColumns = .ok auditPlan :=
    Scan.plan_eq_ok_iff.mpr ⟨by decide +kernel, ScanConfiguration.plan_of_nothing rfl rfl rfl rfl⟩
  have hcall : ∀ t : Session, auditScan.refusal? t = none →
      auditScan.call t given = auditScan.execute t auditPlan := by
    intro t hgoing
    change auditScan.runGiven t auditColumns = _
    rw [Scan.runGiven, hgoing]
    change auditScan.runColumns t auditColumns = _
    rw [Scan.runColumns, hplan]
  have hkept : s.KeepsConnection := by
    rintro _ _ _ ⟨⟩
  obtain ⟨result, hresult⟩ := @Scan.exists_result s auditScan auditPlan hkept rfl
  obtain ⟨result', hresult'⟩ :=
    @Scan.exists_result (s.cancelledAfter 1) auditScan auditPlan hkept rfl
  have hcancelled : result'.cancelled = true := by
    rw [(Scan.of_execute hresult').2]
    decide +kernel
  rw [← hcall s rfl] at hresult
  rw [← hcall (s.cancelledAfter 1) rfl] at hresult'
  exact ⟨rfl, result, result', hresult, hresult', hcancelled,
    Scan.cancellation_cuts_run rfl hresult hresult'⟩

end DataQuality
