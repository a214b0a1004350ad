import Mathlib.Data.List.Count
import DataQuality.Config.Validation
import DataQuality.Plan.Build
import DataQuality.Proofs.GroupEntries

/-!
# Planned custom queries

What becomes of the custom queries of a scan. Each is planned after those before it and binds only
outputs whose keys nobody has planned yet, so two queries never bind the same key. One query may
still bind a key twice, if it gives a name to two columns of its result.
-/

namespace DataQuality

namespace DeclaredMetric

/-- The keys of the measurements that a query declares, in order and with repetitions. -/
def outputKeys (d : DeclaredMetric) : List MetricKey :=
  d.form?.toList.flatMap fun f ↦ f.bindings.map Binding.key

theorem outputKeys_of_form? {d : DeclaredMetric} {f : CustomForm} (h : d.form? = some f) :
    d.outputKeys = f.bindings.map Binding.key := by
  simp [outputKeys, h]

/-- A query without flaws has a text and a form. -/
theorem form?_of_flaw? {d : DeclaredMetric} (h : d.metric.flaw? = none) :
    Text.isBlank d.metric.sql = false ∧ ∃ f, d.form? = some f := by
  unfold SqlMetric.flaw? at h
  split at h
  · cases h
  · next hblank =>
    refine ⟨by simpa using hblank, ?_⟩
    split at h
    · cases h
    · next hfailed =>
      split at h
      · cases h
      · next hgrouped =>
        unfold form?
        cases hkind : d.metric.kind with
        | numeric =>
          cases hname : d.metric.name with
          | none =>
            have hplain : d.metric.isGrouped = false := by simpa [hname] using hgrouped
            rw [hplain]
            exact ⟨_, rfl⟩
          | some name => cases d.metric.isGrouped <;> exact ⟨_, rfl⟩
        | failedRows =>
          cases hname : d.metric.name with
          | none => exact absurd ⟨hkind, by rw [hname]; rfl⟩ hfailed
          | some name => exact ⟨_, rfl⟩

/-- The forms of a query: it counts rows that should not be there, it has groups of rows, or its
only row holds its measurements. -/
theorem form?_cases {d : DeclaredMetric} {f : CustomForm} (h : d.form? = some f) :
    (∃ name, d.metric.kind = .failedRows ∧ d.metric.name = some name ∧
        f = ⟨.rowCount, [d.binding name none], (name ++ " == 0") :: d.metric.tests, none⟩) ∨
      (∃ name fields, d.metric.kind = .numeric ∧ d.metric.groupFields = some fields ∧
        d.metric.isGrouped = true ∧
        f = ⟨.groups fields, [d.binding name none], d.metric.tests, some (d.key name)⟩) ∨
      (d.metric.kind = .numeric ∧ d.metric.isGrouped = false ∧
        f = ⟨.singleRow, d.outputs, d.metric.tests, none⟩) := by
  unfold form? at h
  split at h
  · next name hkind hname => exact .inl ⟨name, hkind, hname, (Option.some.inj h).symm⟩
  · next name hkind hname =>
    split at h
    · next hgrouped =>
      obtain ⟨fields, hfields⟩ : ∃ fields, d.metric.groupFields = some fields := by
        rw [← Option.isSome_iff_exists]
        exact Option.isSome_of_any hgrouped
      rw [hfields] at h
      exact .inr (.inl ⟨name, fields, hkind, hfields, hgrouped, (Option.some.inj h).symm⟩)
    · next hgrouped =>
      exact .inr (.inr ⟨hkind, by simpa using hgrouped, (Option.some.inj h).symm⟩)
  · next hkind hname =>
    split at h
    · cases h
    · next hgrouped =>
      exact .inr (.inr ⟨hkind, by simpa using hgrouped, (Option.some.inj h).symm⟩)
  · cases h

/-- The form of a query whose only row holds its measurements. -/
theorem form?_of_plain {d : DeclaredMetric} (hkind : d.metric.kind = .numeric)
    (hplain : d.metric.isGrouped = false) :
    d.form? = some ⟨.singleRow, d.outputs, d.metric.tests, none⟩ := by
  unfold form?
  rw [hkind, hplain]
  cases d.metric.name <;> rfl

/-- What planning a query comes to: it is refused with an issue, or it becomes a group of those
outputs that are not planned yet, and all of its tests are kept. -/
theorem plan_cases (d : DeclaredMetric) (table : String) (known : List MetricKey) :
    ((d.plan table known).group = none ∧ (d.plan table known).tests = none ∧
        (d.plan table known).issues ≠ []) ∨
      ∃ f bindings, d.form? = some f ∧
        bindings = f.bindings.filter (fun b ↦ !known.contains b.key) ∧ bindings ≠ [] ∧
        (d.plan table known).group =
          some ⟨.custom, d.label, .sql d.metric.sql, f.shape, bindings⟩ ∧
        (d.plan table known).tests = some ⟨d.scope table bindings f.grouped, f.tests⟩ := by
  unfold plan
  split
  · exact .inl ⟨rfl, rfl, by simp⟩
  · split
    · next f hf =>
      unfold planForm
      dsimp only
      split
      · exact .inl ⟨rfl, rfl, by simp⟩
      · next hsome =>
        refine .inr ⟨f, _, hf, rfl, ?_, rfl, rfl⟩
        rintro hempty
        exact hsome (by rw [hempty]; rfl)
    · exact .inl ⟨rfl, rfl, by simp⟩

/-- A query whose tests are kept has a form and a group. -/
theorem exists_form_of_plan {d : DeclaredMetric} {table : String} {known : List MetricKey}
    {b : DeclaredTests} (h : (d.plan table known).tests = some b) :
    ∃ f bindings, d.form? = some f ∧
      bindings = f.bindings.filter (fun b ↦ !known.contains b.key) ∧ bindings ≠ [] ∧
      (d.plan table known).group = some ⟨.custom, d.label, .sql d.metric.sql, f.shape, bindings⟩ ∧
      b = ⟨d.scope table bindings f.grouped, f.tests⟩ := by
  rcases d.plan_cases table known with
    ⟨-, hnone, -⟩ | ⟨f, bindings, hf, hbindings, hnonempty, hgroup, htests⟩
  · rw [hnone] at h
    cases h
  · exact ⟨f, bindings, hf, hbindings, hnonempty, hgroup, Option.some.inj (h.symm.trans htests)⟩

/-- A query binds only outputs of its own that are not planned yet. -/
theorem of_mem_keys_plan {d : DeclaredMetric} {table : String} {known : List MetricKey}
    {key : MetricKey} (h : key ∈ (d.plan table known).keys) :
    key ∈ d.outputKeys ∧ key ∉ known := by
  unfold CustomPlan.keys at h
  rcases d.plan_cases table known with ⟨hgroup, _, _⟩ | ⟨f, bindings, hf, hbindings, _, hgroup, _⟩
  · rw [hgroup] at h
    cases h
  · rw [hgroup, hbindings] at h
    simp only [Option.toList_some, List.flatMap_cons, List.flatMap_nil, List.append_nil,
      GroupSpec.keys, List.mem_map, List.mem_filter] at h
    obtain ⟨b, ⟨hb, hnew⟩, rfl⟩ := h
    rw [outputKeys_of_form? hf]
    exact ⟨List.mem_map_of_mem hb, by simpa using hnew⟩

/-- A query without flaws binds all of its outputs that are not planned yet. -/
theorem keys_plan {d : DeclaredMetric} (h : d.metric.flaw? = none) (table : String)
    (known : List MetricKey) :
    (d.plan table known).keys = d.outputKeys.filter fun key ↦ !known.contains key := by
  obtain ⟨hsql, f, hf⟩ := form?_of_flaw? h
  rw [outputKeys_of_form? hf, List.filter_map]
  unfold plan CustomPlan.keys
  rw [hsql, hf]
  simp only [Bool.false_eq_true, if_false]
  unfold planForm
  dsimp only
  split
  · next hempty =>
    have hnone := List.isEmpty_iff.mp hempty
    change [] = List.map Binding.key (List.filter (fun b ↦ !known.contains b.key) f.bindings)
    rw [hnone]
    rfl
  · simp only [Option.toList_some, List.flatMap_cons, List.flatMap_nil, List.append_nil]
    rfl

/-- The group of a query runs last, and its query is the one declared. -/
theorem of_group_plan {d : DeclaredMetric} {table : String} {known : List MetricKey}
    {g : GroupSpec} (h : (d.plan table known).group = some g) :
    g.phase = .custom ∧ g.query = .sql d.metric.sql := by
  rcases d.plan_cases table known with ⟨hgroup, _, _⟩ | ⟨f, bindings, _, _, _, hgroup, _⟩
  · rw [hgroup] at h
    cases h
  · rw [hgroup] at h
    cases h
    exact ⟨rfl, rfl⟩

end DeclaredMetric

/-! ### One query after another -/

/-- The queries of a list are declared with their indexes in it. -/
theorem mem_declareMetrics {key? : Option String} {start : Nat} {ms : List SqlMetric}
    {m : DeclaredMetric} (h : m ∈ declareMetrics key? start ms) :
    m.column = key? ∧ ∃ i, m.index = start + i ∧ ms[i]? = some m.metric := by
  induction ms generalizing start with
  | nil => cases h
  | cons first rest ih =>
    rcases List.mem_cons.mp h with rfl | h
    · exact ⟨rfl, 0, rfl, rfl⟩
    · obtain ⟨hcolumn, i, hindex, hmetric⟩ := ih h
      exact ⟨hcolumn, i + 1, by omega, hmetric⟩

/-- The indexes of the queries of a list are different. -/
theorem pairwise_declareMetrics (key? : Option String) (start : Nat) (ms : List SqlMetric) :
    (declareMetrics key? start ms).Pairwise fun m m' ↦ m.index ≠ m'.index := by
  induction ms generalizing start with
  | nil => exact .nil
  | cons first rest ih =>
    refine List.pairwise_cons.mpr ⟨fun m hm ↦ ?_, ih (start + 1)⟩
    obtain ⟨-, i, hindex, -⟩ := mem_declareMetrics hm
    change start ≠ m.index
    omega

/-- Whatever is bound was not planned before. -/
theorem not_known_of_mem_planCustom {table : String} {known : List MetricKey}
    {ds : List DeclaredMetric} {key : MetricKey}
    (h : key ∈ (planCustom table known ds).flatMap CustomPlan.keys) : key ∉ known := by
  induction ds generalizing known with
  | nil => cases h
  | cons d rest ih =>
    rw [planCustom, List.flatMap_cons, List.mem_append] at h
    rcases h with h | h
    · exact (DeclaredMetric.of_mem_keys_plan h).2
    · intro hknown
      exact ih h (List.mem_append_left _ hknown)

/-- A planned query comes from one that was declared. -/
theorem exists_of_mem_planCustom {table : String} {known : List MetricKey}
    {ds : List DeclaredMetric} {c : CustomPlan} (h : c ∈ planCustom table known ds) :
    ∃ d ∈ ds, ∃ others, c = d.plan table others := by
  induction ds generalizing known with
  | nil => cases h
  | cons d rest ih =>
    rcases List.mem_cons.mp h with rfl | h
    · exact ⟨d, List.mem_cons_self, known, rfl⟩
    · obtain ⟨d', hd', others, hc⟩ := ih h
      exact ⟨d', List.mem_cons_of_mem _ hd', others, hc⟩

/-- Every declared query is planned. -/
theorem exists_mem_planCustom {table : String} {known : List MetricKey}
    {ds : List DeclaredMetric} {d : DeclaredMetric} (h : d ∈ ds) :
    ∃ others, d.plan table others ∈ planCustom table known ds := by
  induction ds generalizing known with
  | nil => cases h
  | cons e rest ih =>
    rcases List.mem_cons.mp h with rfl | h
    · exact ⟨known, List.mem_cons_self⟩
    · obtain ⟨others, hmem⟩ := @ih (known ++ (e.plan table known).keys) h
      exact ⟨others, List.mem_cons_of_mem _ hmem⟩

/-- Two queries never bind the same key. -/
theorem pairwise_disjoint_planCustom {table : String} {known : List MetricKey}
    {ds : List DeclaredMetric} :
    (planCustom table known ds).Pairwise fun c e ↦ c.keys.Disjoint e.keys := by
  induction ds generalizing known with
  | nil => exact List.Pairwise.nil
  | cons d rest ih =>
    rw [planCustom, List.pairwise_cons]
    refine ⟨?_, ih⟩
    intro e he key hkey hlater
    exact not_known_of_mem_planCustom (List.mem_flatMap.mpr ⟨e, he, hlater⟩)
      (List.mem_append_right _ hkey)

/-- A key is bound twice only within a query. -/
theorem nodup_keys_planCustom_iff {table : String} {known : List MetricKey}
    {ds : List DeclaredMetric} :
    ((planCustom table known ds).flatMap CustomPlan.keys).Nodup ↔
      ∀ c ∈ planCustom table known ds, c.keys.Nodup := by
  rw [List.nodup_flatMap]
  exact and_iff_left pairwise_disjoint_planCustom

section

variable {table : String} {known : List MetricKey} {ds : List DeclaredMetric}

private theorem known_step {d : DeclaredMetric} (h : d.metric.flaw? = none) (table : String)
    (known : List MetricKey) (key : MetricKey) :
    key ∈ known ++ (d.plan table known).keys ↔ key ∈ known ∨ key ∈ d.outputKeys := by
  rw [List.mem_append, DeclaredMetric.keys_plan h, List.mem_filter]
  simp only [Bool.not_eq_true', List.contains_eq_mem, decide_eq_false_iff_not]
  by_cases hknown : key ∈ known <;> simp [hknown]

/-- Queries without flaws bind every output that was not planned before. -/
theorem mem_keys_planCustom_iff (hsound : ∀ d ∈ ds, d.metric.flaw? = none) {key : MetricKey} :
    key ∈ (planCustom table known ds).flatMap CustomPlan.keys ↔
      key ∉ known ∧ ∃ d ∈ ds, key ∈ d.outputKeys := by
  induction ds generalizing known with
  | nil => simp [planCustom]
  | cons d rest ih =>
    obtain ⟨hd, hrest⟩ := List.forall_mem_cons.mp hsound
    rw [planCustom, List.flatMap_cons, List.mem_append, ih hrest, known_step hd table known key,
      DeclaredMetric.keys_plan hd, List.mem_filter, List.exists_mem_cons_iff]
    simp only [Bool.not_eq_true', List.contains_eq_mem, decide_eq_false_iff_not, not_or]
    constructor
    · rintro (⟨hout, hnew⟩ | ⟨⟨hnew, _⟩, hlater⟩)
      · exact ⟨hnew, .inl hout⟩
      · exact ⟨hnew, .inr hlater⟩
    · rintro ⟨hnew, hout | hlater⟩
      · exact .inl ⟨hout, hnew⟩
      · by_cases hout : key ∈ d.outputKeys
        · exact .inl ⟨hout, hnew⟩
        · exact .inr ⟨⟨hnew, hout⟩, hlater⟩

/-- A query repeats itself if it declares a key twice that neither the catalog, in `known`, nor a
query before it accounts for. -/
def RepeatsItself (known : List MetricKey) (ds : List DeclaredMetric) : Prop :=
  ∃ before d after key, ds = before ++ d :: after ∧ 1 < d.outputKeys.count key ∧
    key ∉ known ∧ ∀ e ∈ before, key ∉ e.outputKeys

theorem repeatsItself_nil : ¬ RepeatsItself known [] := by
  rintro ⟨before, d, after, _, heq, _⟩
  exact List.append_ne_nil_of_right_ne_nil _ (List.cons_ne_nil _ _) heq.symm

/-- The first query repeats itself, or one of the rest does, with its outputs planned. -/
theorem repeatsItself_cons {d : DeclaredMetric} {others : List MetricKey}
    (hothers : ∀ key, key ∈ others ↔ key ∈ known ∨ key ∈ d.outputKeys) :
    RepeatsItself known (d :: ds) ↔
      (∃ key, 1 < d.outputKeys.count key ∧ key ∉ known) ∨ RepeatsItself others ds := by
  constructor
  · rintro ⟨before, e, after, key, heq, hcount, hnew, hbefore⟩
    cases before with
    | nil =>
      cases heq
      exact .inl ⟨key, hcount, hnew⟩
    | cons first before =>
      cases heq
      obtain ⟨hfirst, hbefore⟩ := List.forall_mem_cons.mp hbefore
      refine .inr ⟨before, e, after, key, rfl, hcount, ?_, hbefore⟩
      rw [hothers]
      exact not_or.mpr ⟨hnew, hfirst⟩
  · rintro (⟨key, hcount, hnew⟩ | ⟨before, e, after, key, rfl, hcount, hnew, hbefore⟩)
    · exact ⟨[], d, ds, key, rfl, hcount, hnew, by simp⟩
    · rw [hothers, not_or] at hnew
      exact ⟨d :: before, e, after, key, rfl, hcount, hnew.1,
        List.forall_mem_cons.mpr ⟨hnew.2, hbefore⟩⟩

/-- Queries without flaws bind a key twice exactly when one of them repeats itself. -/
theorem nodup_keys_planCustom (hsound : ∀ d ∈ ds, d.metric.flaw? = none) :
    ((planCustom table known ds).flatMap CustomPlan.keys).Nodup ↔ ¬ RepeatsItself known ds := by
  rw [nodup_keys_planCustom_iff]
  induction ds generalizing known with
  | nil => exact iff_of_true (by simp [planCustom]) repeatsItself_nil
  | cons d rest ih =>
    obtain ⟨hd, hrest⟩ := List.forall_mem_cons.mp hsound
    rw [planCustom, List.forall_mem_cons, ih hrest,
      repeatsItself_cons (known_step hd table known), not_or]
    refine and_congr_left fun _ ↦ ?_
    rw [DeclaredMetric.keys_plan hd, List.nodup_iff_count_le_one, not_exists]
    refine forall_congr' fun key ↦ ?_
    by_cases hknown : key ∈ known
    · have hzero : (d.outputKeys.filter fun k ↦ !known.contains k).count key = 0 := by
        rw [List.count_eq_zero, List.mem_filter]
        simp [hknown]
      rw [hzero]
      exact iff_of_true (Nat.zero_le 1) fun h ↦ h.2 hknown
    · rw [List.count_filter (by simpa using hknown)]
      simp [hknown]

end

end DataQuality
