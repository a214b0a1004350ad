import DataQuality.Proofs.Producers
import DataQuality.Proofs.ReportedKeys

/-!
# Measured before it is read

A plan reads nothing before it is measured. The metrics of a column are planned in catalog order,
each from metrics that can be had, so a derived metric reads what groups bind or what is derived
before it, and a histogram waits for bounds that aggregates give. The groups are numbered in the
order of their phases, so a run that takes the phases in order finds all that it reads.
-/

namespace DataQuality

/-! ### Reading -/

/-- The keys of the bounds that a group waits for. -/
def GroupSpec.reads (g : GroupSpec) : List MetricKey :=
  match g.query with
  | .sql _ => []
  | .histogram q => [q.min, q.max]

/-- Every key that one of the derived metrics reads is known or derived before it. -/
def ReadsKnown (known : MetricKey → Prop) : List DerivedMetric → Prop
  | [] => True
  | d :: rest =>
    (∀ key ∈ d.reads, known key) ∧ ReadsKnown (fun key ↦ known key ∨ d.key = key) rest

namespace ReadsKnown

variable {known other : MetricKey → Prop} {ds es : List DerivedMetric}

/-- It does no harm to know more keys. -/
theorem mono (h : ReadsKnown known ds) (hknown : ∀ key, known key → other key) :
    ReadsKnown other ds := by
  induction ds generalizing known other with
  | nil => exact h
  | cons d rest ih =>
    exact ⟨fun key hkey ↦ hknown key (h.1 key hkey), ih h.2 fun key ↦ .imp_left (hknown key)⟩

/-- Lists that read known keys may follow each other. -/
theorem append (hds : ReadsKnown known ds) (hes : ReadsKnown known es) :
    ReadsKnown known (ds ++ es) := by
  induction ds generalizing known with
  | nil => exact hes
  | cons d rest ih => exact ⟨hds.1, ih hds.2 (hes.mono fun _ ↦ .inl)⟩

/-- Any number of lists that read known keys may follow each other. -/
theorem flatMap {α : Type} {f : α → List DerivedMetric} {l : List α}
    (h : ∀ a ∈ l, ReadsKnown known (f a)) : ReadsKnown known (l.flatMap f) := by
  induction l with
  | nil => exact True.intro
  | cons a rest ih =>
    obtain ⟨ha, hrest⟩ := List.forall_mem_cons.mp h
    exact ha.append (ih hrest)

/-- Whatever a metric in the list reads is known, or derived before it. -/
theorem of_mem_reads {before after : List DerivedMetric} {d : DerivedMetric}
    (h : ReadsKnown known (before ++ d :: after)) {key : MetricKey} (hkey : key ∈ d.reads) :
    known key ∨ ∃ e ∈ before, e.key = key := by
  induction before generalizing known with
  | nil => exact .inl (h.1 key hkey)
  | cons e rest ih =>
    rcases ih h.2 with (hknown | he) | ⟨f, hf, hfkey⟩
    · exact .inl hknown
    · exact .inr ⟨e, List.mem_cons_self, he⟩
    · exact .inr ⟨f, List.mem_cons_of_mem _ hf, hfkey⟩

end ReadsKnown

/-! ### The metrics of a column -/

/-- What a metric depends on that needs the values of a column is an aggregate over the column. -/
theorem Metric.aggregate_of_mem_dependencies {m d : Metric} (hm : m.computation = .distribution)
    (hd : d ∈ m.dependencies) : d.computation = .aggregate ∧ d ≠ .rowCount := by
  revert hm hd
  cases m <;> cases d <;> decide

/-- The key under which a metric of the column finds a metric that it depends on. -/
def ColumnProfile.dependencyKey (p : ColumnProfile) (m : Metric) : MetricKey :=
  if m.isTableWide then .ofTable m.name else p.metricKey m

/-- Only the number of rows is found under a key of the table. -/
theorem ColumnProfile.dependencyKey_of_ne {p : ColumnProfile} {m : Metric} (h : m ≠ .rowCount) :
    p.dependencyKey m = p.metricKey m := by
  simp [dependencyKey, Metric.isTableWide, h]

namespace ColumnPlan

variable {p : ColumnProfile} {c : ColumnPlan} {available : List Metric} {r : ResolvedMetric}
  {how : Producer} {key : MetricKey}

/-- Queries measure a key for a column: the key of one of its own metrics, or the number of rows. -/
def Measures (p : ColumnProfile) (c : ColumnPlan) (key : MetricKey) : Prop :=
  key ∈ c.aggregates.map AggregateExpr.key ∨
    key ∈ c.distributions.map (fun d ↦ p.metricKey d.metric) ∨
    rowCountRequest true ∈ c.findings.requests ∧ key = .ofTable Metric.rowCount.name

/-- What is measured is still measured with another metric in front. -/
theorem Measures.produce (h : c.Measures p key) : (c.produce p r how).Measures p key := by
  have hrequests := congrArg Findings.requests (findings_produce p r how c)
  rcases h with haggregate | hdistribution | ⟨hrow, hkey⟩
  · left
    cases how with
    | aggregate sql => exact List.mem_cons_of_mem _ haggregate
    | distribution => exact haggregate
    | derived => exact haggregate
  · right
    left
    cases how with
    | aggregate sql => exact hdistribution
    | distribution => exact List.mem_cons_of_mem _ hdistribution
    | derived => exact hdistribution
  · refine .inr (.inr ⟨?_, hkey⟩)
    rw [hrequests]
    exact List.mem_cons_of_mem _ hrow

/-- The metrics of a column stand on what was available before them: each derived metric on what
queries measure or what is derived before it, and each distribution on aggregates. -/
structure Grounded (p : ColumnProfile) (available : List Metric) (c : ColumnPlan) : Prop where
  derived : ReadsKnown (fun key ↦ key ∈ available.map p.dependencyKey ∨ c.Measures p key) c.derived
  bounds : ∀ d ∈ c.distributions, d.metric.computation = .distribution ∧
    ∀ m ∈ d.metric.dependencies, m ∈ available ∨
      p.metricKey m ∈ c.aggregates.map AggregateExpr.key

theorem grounded_empty (p : ColumnProfile) (available : List Metric) :
    empty.Grounded p available :=
  ⟨True.intro, fun _ hd ↦ by cases hd⟩

/-- The number of rows need not be available if it is requested. -/
theorem Grounded.request (h : c.Grounded p (.rowCount :: available)) :
    (c.request (rowCountRequest true)).Grounded p available where
  derived := by
    refine h.derived.mono ?_
    rintro key (havailable | haggregate | hdistribution | ⟨_, hkey⟩)
    · rcases List.mem_cons.mp havailable with hkey | havailable
      · exact .inr (.inr (.inr ⟨List.mem_cons_self, hkey⟩))
      · exact .inl havailable
    · exact .inr (.inl haggregate)
    · exact .inr (.inr (.inl hdistribution))
    · exact .inr (.inr (.inr ⟨List.mem_cons_self, hkey⟩))
  bounds := by
    intro d hd
    obtain ⟨hkind, hdeps⟩ := h.bounds d hd
    refine ⟨hkind, ?_⟩
    intro m hm
    rcases hdeps m hm with havailable | hkey
    · have hne := (Metric.aggregate_of_mem_dependencies hkind hm).2
      exact .inl ((List.mem_cons.mp havailable).resolve_left hne)
    · exact .inr hkey

/-- A metric that is dropped takes nothing away. -/
theorem Grounded.drop (h : c.Grounded p available) (r : ResolvedMetric) (o : Obstacle) :
    (c.drop p r o).Grounded p available := by
  unfold ColumnPlan.drop
  split
  · exact h
  · exact ⟨h.derived, h.bounds⟩

/-- Once a metric stands in front, its key is measured or derived there, so what was known with the
metric available is still known. -/
theorem Measures.of_produce (hrow : r.metric ≠ .rowCount)
    (h : key ∈ (r.metric :: available).map p.dependencyKey ∨ c.Measures p key) :
    p.metricKey r.metric = key ∨
      (key ∈ available.map p.dependencyKey ∨ (c.produce p r how).Measures p key) := by
  rcases h with havailable | hmeasured
  · rcases List.mem_cons.mp havailable with rfl | havailable
    · exact .inl (ColumnProfile.dependencyKey_of_ne hrow).symm
    · exact .inr (.inl havailable)
  · exact .inr (.inr hmeasured.produce)

/-- Once a metric stands in front, the distributions behind it find their bounds without the metric
being available: if they need it, it is an aggregate. -/
theorem Grounded.bounds_produce (h : c.Grounded p (r.metric :: available))
    (hfits : Fits r.metric how) : ∀ d ∈ c.distributions, d.metric.computation = .distribution ∧
      ∀ m ∈ d.metric.dependencies, m ∈ available ∨
        p.metricKey m ∈ (c.produce p r how).aggregates.map AggregateExpr.key := by
  intro d hd
  obtain ⟨hkind, hbounds⟩ := h.bounds d hd
  refine ⟨hkind, ?_⟩
  intro m hm
  have haggregate := (Metric.aggregate_of_mem_dependencies hkind hm).1
  rcases hbounds m hm with havailable | hkey
  · rcases List.mem_cons.mp havailable with rfl | havailable
    · right
      cases how with
      | aggregate sql => exact List.mem_cons_self
      | distribution => exact absurd (haggregate.symm.trans hfits) (by decide)
      | derived => exact absurd (haggregate.symm.trans hfits) (by decide)
    · exact .inl havailable
  · right
    cases how with
    | aggregate sql => exact List.mem_cons_of_mem _ hkey
    | distribution => exact hkey
    | derived => exact hkey

/-- A metric whose dependencies are available may stand in front of metrics that it is available
to. -/
theorem Grounded.produce (h : c.Grounded p (r.metric :: available)) (hrow : r.metric ≠ .rowCount)
    (hdeps : ∀ d ∈ r.metric.dependencies, d ∈ available) (hfits : Fits r.metric how) :
    (c.produce p r how).Grounded p available := by
  have hbounds := h.bounds_produce hfits
  cases how with
  | aggregate sql =>
    refine ⟨h.derived.mono fun key hkey ↦ ?_, hbounds⟩
    rcases Measures.of_produce hrow hkey with rfl | hkey
    · exact .inr (.inl List.mem_cons_self)
    · exact hkey
  | distribution =>
    refine ⟨h.derived.mono fun key hkey ↦ ?_, List.forall_mem_cons.mpr ⟨⟨hfits, ?_⟩, hbounds⟩⟩
    · rcases Measures.of_produce hrow hkey with rfl | hkey
      · exact .inr (.inr (.inl List.mem_cons_self))
      · exact hkey
    · exact fun m hm ↦ .inl (hdeps m hm)
  | derived =>
    refine ⟨⟨?_, h.derived.mono fun key hkey ↦ (Measures.of_produce hrow hkey).symm⟩, hbounds⟩
    intro key hkey
    obtain ⟨m, hm, rfl⟩ := List.mem_map.mp hkey
    exact .inl (List.mem_map_of_mem (f := p.dependencyKey) (hdeps m hm))

/-- Metrics that are planned in order stand on what is available before them. -/
theorem grounded_ofMetrics {w : Warehouse} {conditions : Except DialectError ColumnConditions}
    (available : List Metric) (resolved : List ResolvedMetric) :
    (ofMetrics w p conditions available resolved).Grounded p available := by
  induction resolved generalizing available with
  | nil => exact grounded_empty p available
  | cons r rest ih =>
    unfold ofMetrics
    split
    · exact (ih _).request
    · next hrow =>
      split
      · next how hhow =>
        exact (ih _).produce hrow (producer_cases hhow).1 (fits_of_producer hhow)
      · exact (ih _).drop r _

/-- Whatever is wanted of a column stands on what is planned for it. -/
theorem grounded_ofWanted {w : Warehouse} {conditions : Except DialectError ColumnConditions}
    (metrics : List Metric) : (ofWanted w p conditions metrics).Grounded p [] := by
  unfold ofWanted
  split
  · exact grounded_ofMetrics [] _
  · exact ⟨True.intro, fun _ hd ↦ by cases hd⟩

end ColumnPlan

/-! ### The groups of a plan -/

/-- A distribution group waits only for what a wanted metric depends on. -/
theorem DistributionContext.exists_of_mem_reads {c : DistributionContext} {g : GroupSpec}
    (h : g ∈ c.groups) {key : MetricKey} (hkey : key ∈ g.reads) :
    ∃ d ∈ c.wanted, ∃ m ∈ d.metric.dependencies, key = c.profile.metricKey m := by
  unfold GroupSpec.reads at hkey
  obtain ⟨-, -, ⟨text, -, hquery⟩ | ⟨⟨internal, hinternal⟩, hquery⟩⟩ := cases_of_mem_groups h
  · rw [hquery] at hkey
    cases hkey
  · rw [hquery] at hkey
    refine ⟨_, mem_of_internal? hinternal, ?_⟩
    rcases List.mem_cons.mp hkey with rfl | hkey
    · exact ⟨.min, .head _, rfl⟩
    · exact ⟨.max, .tail _ (.head _), List.mem_singleton.mp hkey⟩

namespace Draft

variable {d : Draft} {key : MetricKey}

/-- Every aggregate is bound by a group of the first phase. -/
theorem exists_aggregate_group
    (h : key ∈ (allAggregates d.requests d.planned).map AggregateExpr.key) :
    ∃ g ∈ d.plan.groups, g.phase = .aggregate ∧ key ∈ g.keys := by
  have hkeys : key ∈ (aggregateGroups d.cap d.source (isInternal d.requests)
      (allAggregates d.requests d.planned)).flatMap GroupSpec.keys := by
    have hentries := congrArg (List.map Prod.fst) (entries_aggregateGroups d.cap d.source
      (isInternal d.requests) (allAggregates d.requests d.planned))
    simp only [List.map_flatMap, GroupSpec.map_fst_entries, List.map_map] at hentries
    rw [hentries]
    exact h
  obtain ⟨g, hg, hkey⟩ := List.mem_flatMap.mp hkeys
  obtain ⟨q, hq, rfl⟩ := exists_mem_numberGroups 0
    (List.mem_append_left d.customGroups (List.mem_append_left _ hg))
  exact ⟨q, hq, (phase_of_mem_aggregateGroups hg).1, hkey⟩

/-- The number of rows is bound by a group of the first phase, if it is requested. -/
theorem exists_aggregate_group_of_rowCount
    (h : .ofTable Metric.rowCount.name ∈ d.requests.map MetricRequest.key) :
    ∃ g ∈ d.plan.groups, g.phase = .aggregate ∧ .ofTable Metric.rowCount.name ∈ g.keys := by
  apply exists_aggregate_group
  rw [map_key_allAggregates, rowCountKeys, if_pos h]
  exact List.mem_append_left _ (List.mem_singleton_self _)

/-- Every aggregate of a column is bound by a group of the first phase. -/
theorem exists_aggregate_group_of_column {column : TableColumn} (hcolumn : column ∈ d.columns)
    (h : key ∈ (metricPlan d.warehouse d.config d.selection.metrics column).aggregates.map
      AggregateExpr.key) : ∃ g ∈ d.plan.groups, g.phase = .aggregate ∧ key ∈ g.keys := by
  apply exists_aggregate_group
  rw [map_key_allAggregates]
  exact List.mem_append_right _ (List.mem_flatMap.mpr ⟨_, List.mem_map_of_mem hcolumn, h⟩)

/-- Whatever queries measure for a column is bound by a group of the catalog. -/
theorem exists_group_of_measures {column : TableColumn} (hcolumn : column ∈ d.columns)
    (h : (metricPlan d.warehouse d.config d.selection.metrics column).Measures
      (.ofColumn d.warehouse column (d.config.column? column.name)) key) :
    ∃ g ∈ d.plan.groups, g.phase ≠ .custom ∧ key ∈ g.keys := by
  rcases h with haggregate | hdistribution | ⟨hrow, rfl⟩
  · obtain ⟨g, hg, hphase, hkey⟩ := exists_aggregate_group_of_column hcolumn haggregate
    exact ⟨g, hg, by rw [hphase]; decide, hkey⟩
  · have hentries := (entries_groups_planColumn d.warehouse d.config d.source d.selection.metrics
      column).map Prod.fst
    rw [List.map_flatMap, List.map_map] at hentries
    simp only [GroupSpec.map_fst_entries] at hentries
    obtain ⟨g, hg, hkey⟩ := List.mem_flatMap.mp (hentries.mem_iff.mpr hdistribution)
    have hmem : g ∈ d.catalogGroups :=
      List.mem_append_right _ (List.mem_flatMap.mpr ⟨_, List.mem_map_of_mem hcolumn, hg⟩)
    obtain ⟨q, hq, rfl⟩ := exists_mem_numberGroups 0 (List.mem_append_left d.customGroups hmem)
    exact ⟨q, hq, phase_of_mem_catalogGroups hmem, hkey⟩
  · have hmeasured : rowCountRequest true ∈ d.measured := by
      refine List.mem_append_right _ (List.mem_flatMap.mpr ⟨_, List.mem_map_of_mem hcolumn, ?_⟩)
      exact List.mem_append_right _ hrow
    have hrequested : .ofTable Metric.rowCount.name ∈ d.requests.map MetricRequest.key :=
      mem_keys_requests.mpr (.inl (List.mem_map_of_mem (f := MetricRequest.key) hmeasured))
    obtain ⟨g, hg, hphase, hkey⟩ := exists_aggregate_group_of_rowCount hrequested
    exact ⟨g, hg, by rw [hphase]; decide, hkey⟩

/-- The metrics of a column stand on what is planned for the column. -/
theorem grounded_metricPlan (d : Draft) (column : TableColumn) :
    (metricPlan d.warehouse d.config d.selection.metrics column).Grounded
      (.ofColumn d.warehouse column (d.config.column? column.name)) [] :=
  ColumnPlan.grounded_ofWanted _

/-- Every derived metric reads what groups of the catalog bind or what is derived before it. -/
theorem readsKnown_derived (d : Draft) :
    ReadsKnown (fun key ↦ ∃ g ∈ d.plan.groups, g.phase ≠ .custom ∧ key ∈ g.keys) d.derived := by
  apply ReadsKnown.flatMap
  intro c hc
  obtain ⟨column, hcolumn, rfl⟩ := List.mem_map.mp hc
  refine (d.grounded_metricPlan column).derived.mono ?_
  rintro key (hnone | hmeasured)
  · cases hnone
  · exact exists_group_of_measures hcolumn hmeasured

/-- A group that waits for a bound runs in the second phase, and an aggregate gives the bound. -/
theorem exists_aggregate_group_of_reads {g : QueryGroup} (hg : g ∈ d.plan.groups)
    (hkey : key ∈ g.reads) :
    g.phase = .distribution ∧ ∃ h ∈ d.plan.groups, h.phase = .aggregate ∧ key ∈ h.keys := by
  obtain ⟨q, hq⟩ : ∃ q, g.query = .histogram q := by
    unfold GroupSpec.reads at hkey
    split at hkey
    · cases hkey
    · next q hq => exact ⟨q, hq⟩
  have hphase := phase_of_histogram hg hq
  refine ⟨hphase, ?_⟩
  obtain ⟨column, hcolumn, c, -, hmem⟩ := exists_column_of_distribution hg hphase
  obtain ⟨m, hm, dependency, hdependency, rfl⟩ :=
    DistributionContext.exists_of_mem_reads hmem hkey
  have hbound := ((d.grounded_metricPlan column).bounds m hm).2 dependency hdependency
  exact exists_aggregate_group_of_column hcolumn (hbound.resolve_left List.not_mem_nil)

end Draft

/-! ### Order -/

/-- Nothing in a plan is read before it is measured: what a derived metric reads is bound by a group
or derived before it, and what a group waits for is bound by a group of the first phase. -/
structure Plan.MeasuresFirst (p : Plan) : Prop where
  derived : ∀ before d after, p.derived = before ++ d :: after → ∀ key ∈ d.reads,
    (∃ g ∈ p.groups, key ∈ g.keys) ∨ ∃ e ∈ before, e.key = key
  bounds : ∀ g ∈ p.groups, ∀ key ∈ g.reads,
    g.phase = .distribution ∧ ∃ h ∈ p.groups, h.phase = .aggregate ∧ key ∈ h.keys

/-- The groups of a plan are numbered as they are listed, and their phases never go back. -/
structure Plan.InOrder (p : Plan) : Prop where
  ids : p.groups.map QueryGroup.id = List.range p.groups.length
  phases : p.groups.Pairwise fun g h ↦ Phase.all.idxOf g.phase ≤ Phase.all.idxOf h.phase

/-- Whatever the warehouse answers, a run of a plan visits each group once in the order of their
numbers, and finds recorded what it reads: a group finds it when its phase begins, and a derived
metric when those before it were derived. -/
structure Plan.FindsRecorded (p : Plan) (w : Warehouse) (start : Run) : Prop where
  visits : ∀ last, Run.Completes w p start Phase.all last → ∃ ts, last = start.take ts ∧
    ts.map (fun t ↦ t.outcome.id) = List.range p.groups.length
  bounds : ∀ earlier phase later r, Phase.all = earlier ++ phase :: later →
    Run.Completes w p start earlier r → ∀ g ∈ p.groupsIn phase, ∀ key ∈ g.reads,
      r.ledger.measurements.contains key = true
  derived : ∀ last, Run.Completes w p start Phase.all last →
    ∀ before d after, p.derived = before ++ d :: after → ∀ key ∈ d.reads,
      (last.ledger.derive before).measurements.contains key = true

namespace Run.Completes

variable {w : Warehouse} {p : Plan} {r last : Run} {phases : List Phase} {key : MetricKey}

/-- The turns that a run adds have the numbers of the groups of its phases, in order. -/
theorem exists_take (h : Completes w p r phases last) :
    ∃ ts, last = r.take ts ∧
      ts.map (fun t ↦ t.outcome.id) = (phases.flatMap p.groupsIn).map QueryGroup.id := by
  obtain ⟨ts, hlast, hturns⟩ := h.exists_turns
  refine ⟨ts, hlast, ?_⟩
  rw [← List.forall₂_eq_eq_eq, List.forall₂_map_left_iff, List.forall₂_map_right_iff]
  exact hturns.flip.imp fun _ _ ⟨_, hturn⟩ ↦ hturn.id

/-- What the groups of its phases bind is recorded when a run has completed them. -/
theorem contains_of_mem_keys (h : Completes w p r phases last) {g : QueryGroup}
    (hg : g ∈ phases.flatMap p.groupsIn) (hkey : key ∈ g.keys) :
    last.ledger.measurements.contains key = true := by
  obtain ⟨ms, hledger, hentries⟩ := h.exists_recordAll
  rw [hledger, Ledger.contains_recordAll]
  right
  have hkeys : ms.map Measurement.key = (phases.flatMap p.groupsIn).flatMap fun g ↦ g.keys := by
    have hfst := congrArg (List.map Prod.fst) hentries
    simp only [List.map_map, List.map_flatMap, GroupSpec.map_fst_entries] at hfst
    exact hfst
  rw [hkeys]
  exact List.mem_flatMap.mpr ⟨g, hg, hkey⟩

end Run.Completes

/-- A plan whose groups are in order and that measures before it reads finds recorded what it
reads, if the phases in order make up its groups. -/
theorem Plan.MeasuresFirst.findsRecorded {p : Plan} (h : p.MeasuresFirst) (horder : p.InOrder)
    (hgroups : Phase.all.flatMap p.groupsIn = p.groups) (w : Warehouse) (start : Run) :
    p.FindsRecorded w start where
  visits := by
    intro last hlast
    obtain ⟨ts, hts, hids⟩ := hlast.exists_take
    rw [hgroups, horder.ids] at hids
    exact ⟨ts, hts, hids⟩
  bounds := by
    intro earlier phase later r hphases hr g hg key hkey
    obtain ⟨hmem, rfl⟩ := mem_groupsIn_iff.mp hg
    obtain ⟨hdistribution, h', hh', haggregate, hbound⟩ := h.bounds g hmem key hkey
    have hearlier : .aggregate ∈ earlier := by
      rw [hdistribution] at hphases
      cases earlier with
      | nil => cases hphases
      | cons first rest =>
        obtain ⟨rfl, _⟩ := List.cons.inj hphases
        exact List.mem_cons_self
    refine hr.contains_of_mem_keys (List.mem_flatMap.mpr ⟨.aggregate, hearlier, ?_⟩) hbound
    exact mem_groupsIn_iff.mpr ⟨hh', haggregate⟩
  derived := by
    intro last hlast before d after hsplit key hkey
    rw [Ledger.derive_eq_recordAll, Ledger.contains_recordAll, Ledger.map_key_derivations]
    rcases h.derived before d after hsplit key hkey with ⟨g, hg, hbound⟩ | ⟨e, he, rfl⟩
    · left
      rw [← hgroups] at hg
      exact hlast.contains_of_mem_keys hg hbound
    · exact .inr (List.mem_map_of_mem he)

/-- The groups of a plan come phase by phase and are numbered from zero. -/
theorem Draft.inOrder (d : Draft) : d.plan.InOrder where
  ids := by
    rw [plan_groups, map_id_numberGroups, List.range_eq_range',
      ← List.length_map QueryGroup.toGroupSpec, map_toGroupSpec_numberGroups]
  phases := by
    rw [← flatMap_groupsIn, List.pairwise_flatMap]
    have hphase : ∀ {phase g}, g ∈ d.plan.groupsIn phase → g.phase = phase :=
      fun hg ↦ (Plan.mem_groupsIn_iff.mp hg).2
    constructor
    · intro phase _
      refine List.pairwise_of_forall_mem_list fun g hg h hh ↦ ?_
      have hsame : g.phase = h.phase := (hphase hg).trans (hphase hh).symm
      exact Nat.le_of_eq (congrArg Phase.all.idxOf hsame)
    · have hall : Phase.all.Pairwise fun a b ↦ Phase.all.idxOf a ≤ Phase.all.idxOf b := by decide
      refine hall.imp fun {a b} hab g hg h hh ↦ ?_
      rw [hphase hg, hphase hh]
      exact hab

/-- A plan measures what it reads before it reads it: its groups are numbered in the order of their
phases, and a run that takes the phases in order visits each group once and finds recorded whatever
a group or a derived metric reads. -/
theorem Plan.measures_before_reading {w : Warehouse} {cap : Nat} {config : ScanConfiguration}
    {columns : List TableColumn} {p : Plan} (hplan : config.plan w cap columns = .ok p) :
    p.MeasuresFirst ∧ p.InOrder ∧ ∀ dialect start, p.FindsRecorded dialect start := by
  obtain ⟨_, source, _, rfl⟩ := ScanConfiguration.plan_eq_ok_iff.mp hplan
  let d : Draft := ⟨w, cap, config, columns, source⟩
  have hfirst : d.plan.MeasuresFirst := by
    refine ⟨?_, fun g hg key hkey ↦ Draft.exists_aggregate_group_of_reads hg hkey⟩
    intro before m after hsplit key hkey
    have hreads := d.readsKnown_derived
    rw [← Draft.plan_derived, hsplit] at hreads
    exact (hreads.of_mem_reads hkey).imp_left fun ⟨g, hg, _, hbound⟩ ↦ ⟨g, hg, hbound⟩
  exact ⟨hfirst, d.inOrder, hfirst.findsRecorded d.inOrder d.flatMap_groupsIn⟩

/-- The plan of the table of orders, with percentages, a histogram and a share of different values,
measures what it reads before it reads it. -/
theorem ordersConfiguration_measures_before_reading :
    ∃ p, ordersConfiguration.plan .postgreSQL 2 ordersColumns = .ok p ∧
      p.MeasuresFirst ∧ p.InOrder ∧ ∀ dialect start, p.FindsRecorded dialect start := by
  obtain ⟨p, hplan⟩ : ∃ p, ordersConfiguration.plan .postgreSQL 2 ordersColumns = .ok p :=
    ScanConfiguration.exists_plan (by decide) rfl
  exact ⟨p, hplan, Plan.measures_before_reading hplan⟩

end DataQuality
