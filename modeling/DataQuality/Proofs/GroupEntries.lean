import Mathlib.Data.List.Nodup
import DataQuality.Plan.Build
import DataQuality.Proofs.ColumnMetrics
import DataQuality.Proofs.KeyedLists

/-!
# What groups measure

The keys that each kind of group binds, with the flag of each binding: the aggregate groups bind the
aggregates in order, and the distribution groups of a column what is wanted of it.
-/

namespace DataQuality

/-- The keys that a group binds, each with whether it is internal. -/
def GroupSpec.entries (g : GroupSpec) : List (MetricKey × Bool) :=
  g.bindings.map fun b ↦ (b.key, b.internal)

/-- The keys of a group are those of its entries. -/
theorem GroupSpec.map_fst_entries (g : GroupSpec) : g.entries.map Prod.fst = g.keys := by
  simp [entries, keys]

/-! ### Numbered groups -/

/-- Numbering changes nothing else about the groups. -/
@[simp] theorem map_toGroupSpec_numberGroups (id : Nat) (gs : List GroupSpec) :
    (numberGroups id gs).map QueryGroup.toGroupSpec = gs := by
  induction gs generalizing id with
  | nil => rfl
  | cons g rest ih => rw [numberGroups, List.map_cons, ih]

/-- Groups are numbered one after another. -/
@[simp] theorem map_id_numberGroups (id : Nat) (gs : List GroupSpec) :
    (numberGroups id gs).map QueryGroup.id = List.range' id gs.length := by
  induction gs generalizing id with
  | nil => rfl
  | cons g rest ih => rw [numberGroups, List.map_cons, ih, List.length_cons, List.range'_succ]

/-- A number stands for one group only. -/
theorem nodup_id_numberGroups (id : Nat) (gs : List GroupSpec) :
    ((numberGroups id gs).map QueryGroup.id).Nodup := by
  rw [map_id_numberGroups]
  exact List.nodup_range'

/-- Groups are numbered on from those before them. -/
theorem numberGroups_append (id : Nat) (gs hs : List GroupSpec) :
    numberGroups id (gs ++ hs) = numberGroups id gs ++ numberGroups (id + gs.length) hs := by
  induction gs generalizing id with
  | nil => rfl
  | cons g rest ih =>
    rw [List.cons_append, numberGroups, numberGroups, ih, List.cons_append, List.length_cons,
      Nat.add_assoc, Nat.add_comm 1]

/-- What is collected from numbered groups is what the groups hold. -/
theorem flatMap_numberGroups {α : Type} (f : GroupSpec → List α) (id : Nat)
    (gs : List GroupSpec) :
    ((numberGroups id gs).flatMap fun g ↦ f g.toGroupSpec) = gs.flatMap f := by
  conv_rhs => rw [← map_toGroupSpec_numberGroups id gs]
  rw [List.flatMap_map]

/-- A numbered group was there before. -/
theorem mem_of_mem_numberGroups {id : Nat} {gs : List GroupSpec} {g : QueryGroup}
    (h : g ∈ numberGroups id gs) : g.toGroupSpec ∈ gs := by
  rw [← map_toGroupSpec_numberGroups id gs]
  exact List.mem_map_of_mem h

/-- A group that is numbered is still there. -/
theorem exists_mem_numberGroups (id : Nat) {gs : List GroupSpec} {g : GroupSpec} (h : g ∈ gs) :
    ∃ q ∈ numberGroups id gs, q.toGroupSpec = g := by
  rw [← map_toGroupSpec_numberGroups id gs] at h
  exact List.mem_map.mp h

/-! ### Aggregate groups -/

/-- A batch binds the keys of its aggregates. -/
theorem entries_batchBindings (internal : MetricKey → Bool) (position : Nat)
    (batch : List NamedAggregate) :
    (batchBindings internal position batch).map (fun b ↦ (b.key, b.internal)) =
      batch.map fun a ↦ (a.expr.key, internal a.expr.key) := by
  induction batch generalizing position with
  | nil => rfl
  | cons a rest ih => rw [batchBindings, List.map_cons, ih, List.map_cons]

/-- Naming aggregates loses none. -/
theorem map_expr_nameAggregates (position : Nat) (as : List AggregateExpr) :
    (nameAggregates position as).map NamedAggregate.expr = as := by
  induction as generalizing position with
  | nil => rfl
  | cons a rest ih => rw [nameAggregates, List.map_cons, ih]

/-- However they are cut into batches, the aggregate groups bind all aggregates in order. -/
theorem entries_aggregateGroups (cap : Nat) (source : QuerySource) (internal : MetricKey → Bool)
    (as : List AggregateExpr) :
    (aggregateGroups cap source internal as).flatMap GroupSpec.entries =
      as.map fun a ↦ (a.key, internal a.key) := by
  have hentries : ∀ label batch, (batchGroup source internal label batch).entries =
      batch.map fun a ↦ (a.expr.key, internal a.expr.key) :=
    fun label batch ↦ entries_batchBindings internal 0 batch
  have hparts : ∀ (total n : Nat) (parts : List (List NamedAggregate)),
      ((parts.zipIdx n).map fun x ↦
        batchGroup source internal (batchLabel total x.2) x.1).flatMap GroupSpec.entries =
      parts.flatten.map fun a ↦ (a.expr.key, internal a.expr.key) := by
    intro total n parts
    induction parts generalizing n with
    | nil => rfl
    | cons batch rest ih =>
      simp only [List.zipIdx_cons, List.map_cons, List.flatMap_cons, List.flatten_cons,
        List.map_append, hentries, ih]
  have hflat := hparts (batches cap (nameAggregates 0 as)).length 0
    (batches cap (nameAggregates 0 as))
  rw [batches, flatten_chunksOf] at hflat
  calc (aggregateGroups cap source internal as).flatMap GroupSpec.entries
      = (nameAggregates 0 as).map fun a ↦ (a.expr.key, internal a.expr.key) := hflat
    _ = ((nameAggregates 0 as).map NamedAggregate.expr).map fun a ↦ (a.key, internal a.key) := by
        rw [List.map_map]; rfl
    _ = as.map fun a ↦ (a.key, internal a.key) := by rw [map_expr_nameAggregates]

/-- Aggregate groups run in the first phase and their queries are known before the scan. -/
theorem phase_of_mem_aggregateGroups {cap : Nat} {source : QuerySource}
    {internal : MetricKey → Bool} {as : List AggregateExpr} {g : GroupSpec}
    (h : g ∈ aggregateGroups cap source internal as) :
    g.phase = .aggregate ∧ ∃ text, g.query = .sql text := by
  obtain ⟨x, _, rfl⟩ := List.mem_map.mp h
  exact ⟨rfl, _, rfl⟩

/-! ### Distribution groups -/

/-- The metrics that distribution groups answer, in the order of the groups. -/
def distributionMetrics : List Metric :=
  [.distinct, .uniqueCount, .duplicateCount, .frequentValues, .mins, .maxs, .histogram]

/-- They are the metrics that need the values of a column. -/
theorem mem_distributionMetrics {m : Metric} :
    m ∈ distributionMetrics ↔ m.computation = .distribution := by
  cases m <;> decide

namespace DistributionContext

/-- The entry of a metric, if it is wanted. -/
def entry? (c : DistributionContext) (m : Metric) : Option (MetricKey × Bool) :=
  (c.internal? m).map fun internal ↦ (c.profile.metricKey m, internal)

private theorem entry_binding? (c : DistributionContext) (m : Metric) (resultColumn : String)
    (position : Nat) :
    (c.binding? m resultColumn position).map (fun b ↦ (b.key, b.internal)) = c.entry? m := by
  unfold binding? entry?
  cases c.internal? m <;> rfl

private theorem entries_single (c : DistributionContext) (m : Metric) (resultColumn : String)
    (f : Binding → GroupSpec) (hf : ∀ b, (f b).bindings = [b]) :
    ((c.binding? m resultColumn 0).toList.map f).flatMap GroupSpec.entries =
      (c.entry? m).toList := by
  rw [← entry_binding? c m resultColumn 0]
  cases c.binding? m resultColumn 0 with
  | none => rfl
  | some b => simp [GroupSpec.entries, hf]

private theorem entries_duplicates (c : DistributionContext) :
    c.duplicates.flatMap GroupSpec.entries =
      (c.entry? .distinct).toList ++ (c.entry? .uniqueCount).toList ++
        (c.entry? .duplicateCount).toList := by
  rw [← entry_binding? c .distinct "dq_distinct" 0, ← entry_binding? c .uniqueCount "dq_unique" 1,
    ← entry_binding? c .duplicateCount "dq_duplicate" 2]
  unfold duplicates
  cases c.binding? .distinct "dq_distinct" 0 <;> cases c.binding? .uniqueCount "dq_unique" 1 <;>
    cases c.binding? .duplicateCount "dq_duplicate" 2 <;>
    simp [group, GroupSpec.entries]

/-- The distribution groups of a column bind what is wanted of it, each metric once. -/
theorem entries_groups (c : DistributionContext) :
    c.groups.flatMap GroupSpec.entries = distributionMetrics.filterMap c.entry? := by
  have hone : ∀ (m : Metric) (rest : List Metric),
      (m :: rest).filterMap c.entry? = (c.entry? m).toList ++ rest.filterMap c.entry? := by
    intro m rest
    cases h : c.entry? m <;> simp [h]
  have hfrequent : c.frequentValues.flatMap GroupSpec.entries =
      (c.entry? .frequentValues).toList := entries_single c _ valueColumn _ fun _ ↦ rfl
  have hextremes : ∀ m ascending, (c.extremes m ascending).flatMap GroupSpec.entries =
      (c.entry? m).toList := fun m _ ↦ entries_single c m valueColumn _ fun _ ↦ rfl
  have hhistogram : c.histogram.flatMap GroupSpec.entries = (c.entry? .histogram).toList :=
    entries_single c _ bucketColumn _ fun _ ↦ rfl
  unfold groups
  simp only [List.flatMap_append, entries_duplicates, hfrequent, hextremes, hhistogram,
    distributionMetrics, hone, List.filterMap_nil, List.append_assoc, List.append_nil]

/-- The queries over the values of a column that are known before a scan. -/
def texts (c : DistributionContext) : List String :=
  [Warehouse.duplicatesQuery c.source c.profile.expr (some c.valid),
    c.warehouse.frequentValuesQuery c.source c.profile.expr (some c.valid)
      c.config.frequentValuesLimit,
    c.warehouse.distinctValuesQuery c.source c.profile.expr (some c.valid) true
      c.config.minsMaxsLimit,
    c.warehouse.distinctValuesQuery c.source c.profile.expr (some c.valid) false
      c.config.minsMaxsLimit]

/-- The histogram query of a column, which waits for its bounds. -/
def waiting (c : DistributionContext) : HistogramQuery where
  source := c.source
  expr := c.profile.numericExpr c.warehouse
  predicate := c.valid
  buckets := c.config.histogramBuckets
  min := c.profile.metricKey .min
  max := c.profile.metricKey .max

/-- The keys of a binding that is wanted are those of the column. -/
private theorem key_of_binding? {c : DistributionContext} {m : Metric} {resultColumn : String}
    {position : Nat} {b : Binding} (h : c.binding? m resultColumn position = some b) :
    b.key = c.profile.metricKey m ∧ ∃ internal, c.internal? m = some internal := by
  obtain ⟨internal, hinternal, rfl⟩ := Option.map_eq_some_iff.mp h
  exact ⟨rfl, internal, hinternal⟩

/-- A distribution group measures metrics of its column in the second phase. Its query is known, or
it is the histogram, which is there only where one is wanted. -/
theorem cases_of_mem_groups {c : DistributionContext} {g : GroupSpec} (h : g ∈ c.groups) :
    g.phase = .distribution ∧ (∀ key ∈ g.keys, ∃ m, key = c.profile.metricKey m) ∧
      ((∃ text ∈ c.texts, g.query = .sql text) ∨
        (∃ internal, c.internal? .histogram = some internal) ∧ g.query = .histogram c.waiting) := by
  have hone : ∀ {m resultColumn position} {b : Binding},
      c.binding? m resultColumn position = some b →
      ∀ key ∈ [b.key], ∃ m, key = c.profile.metricKey m := by
    intro m resultColumn position b hb key hkey
    exact ⟨m, (List.mem_singleton.mp hkey).trans (key_of_binding? hb).1⟩
  simp only [groups, duplicates, frequentValues, extremes, histogram, List.mem_append,
    List.mem_map, Option.mem_toList] at h
  rcases h with (((h | ⟨b, hb, rfl⟩) | ⟨b, hb, rfl⟩) | ⟨b, hb, rfl⟩) | ⟨b, hb, rfl⟩
  · split at h
    · cases h
    · obtain rfl := List.mem_singleton.mp h
      refine ⟨rfl, ?_, .inl ⟨_, .head _, rfl⟩⟩
      intro key hkey
      obtain ⟨b, hb, rfl⟩ := List.mem_map.mp hkey
      obtain ⟨o, ho, hsome⟩ := List.mem_filterMap.mp hb
      obtain rfl : o = some b := hsome
      simp only [List.mem_cons, List.not_mem_nil, or_false] at ho
      rcases ho with ho | ho | ho
      all_goals exact ⟨_, (key_of_binding? ho.symm).1⟩
  · exact ⟨rfl, hone hb, .inl ⟨_, .tail _ (.head _), rfl⟩⟩
  · exact ⟨rfl, hone hb, .inl ⟨_, .tail _ (.tail _ (.head _)), rfl⟩⟩
  · exact ⟨rfl, hone hb, .inl ⟨_, .tail _ (.tail _ (.tail _ (.head _))), rfl⟩⟩
  · exact ⟨rfl, hone hb, .inr ⟨(key_of_binding? hb).2, rfl⟩⟩

/-- A metric that is found is wanted. -/
theorem mem_of_internal? {c : DistributionContext} {m : Metric} {internal : Bool}
    (h : c.internal? m = some internal) : ⟨m, internal⟩ ∈ c.wanted := by
  obtain ⟨d, hd, rfl⟩ := Option.map_eq_some_iff.mp h
  obtain rfl : d.metric = m := by simpa using List.find?_some hd
  exact List.mem_of_find?_eq_some hd

/-- When metrics are wanted once, a flag is found exactly for what is wanted. -/
theorem internal?_eq_some_iff {c : DistributionContext}
    (hnodup : (c.wanted.map WantedDistribution.metric).Nodup) {m : Metric} {internal : Bool} :
    c.internal? m = some internal ↔ ⟨m, internal⟩ ∈ c.wanted := by
  constructor
  · exact mem_of_internal?
  · intro hmem
    unfold internal?
    rw [Option.map_eq_some_iff]
    exact ⟨⟨m, internal⟩, find?_key_of_mem hnodup hmem, rfl⟩

/-- The distribution groups of a column bind exactly what is wanted, in some order. -/
theorem entries_groups_perm {c : DistributionContext}
    (hnodup : (c.wanted.map WantedDistribution.metric).Nodup)
    (hkind : ∀ d ∈ c.wanted, d.metric.computation = .distribution) :
    (c.groups.flatMap GroupSpec.entries).Perm
      (c.wanted.map fun d ↦ (c.profile.metricKey d.metric, d.internal)) := by
  rw [entries_groups]
  have hentry : ∀ {m k internal}, c.entry? m = some (k, internal) ↔
      k = c.profile.metricKey m ∧ ⟨m, internal⟩ ∈ c.wanted := by
    intro m k internal
    rw [← internal?_eq_some_iff hnodup, entry?, Option.map_eq_some_iff]
    constructor
    · rintro ⟨i, hi, heq⟩
      cases heq
      exact ⟨rfl, hi⟩
    · rintro ⟨rfl, hi⟩
      exact ⟨internal, hi, rfl⟩
  rw [List.perm_ext_iff_of_nodup]
  · rintro ⟨k, internal⟩
    simp only [List.mem_filterMap, List.mem_map, Prod.mk.injEq, hentry]
    constructor
    · rintro ⟨m, _, rfl, hm⟩
      exact ⟨⟨m, internal⟩, hm, rfl, rfl⟩
    · rintro ⟨d, hd, rfl, rfl⟩
      exact ⟨d.metric, mem_distributionMetrics.mpr (hkind d hd), rfl, hd⟩
  · refine List.Nodup.filterMap ?_ (by decide)
    rintro m n ⟨k, internal⟩ hm hn
    have hkm := (hentry.mp hm).1
    have hkn := (hentry.mp hn).1
    exact ColumnProfile.metricKey_inj.mp (hkm.symm.trans hkn)
  · refine List.Nodup.map_on ?_ (List.Nodup.of_map _ hnodup)
    intro d hd e he heq
    rw [Prod.mk.injEq, ColumnProfile.metricKey_inj] at heq
    exact List.inj_on_of_nodup_map hnodup hd he heq.1

end DistributionContext

end DataQuality
