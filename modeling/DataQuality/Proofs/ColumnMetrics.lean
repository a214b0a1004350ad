import Mathlib.Data.List.Nodup
import DataQuality.Plan.Selection

/-!
# The metrics of a column

What planning the metrics of one column comes to. Each metric that can be had is requested once and
has one way to be obtained: it joins the aggregates, the distributions or the derived metrics.
-/

namespace DataQuality

namespace Metric

/-- No two metrics share a name. -/
theorem nodup_names : (all.map name).Nodup := by decide

/-- A metric is known by its name. -/
theorem name_inj {m n : Metric} : m.name = n.name ↔ m = n := by
  constructor
  · intro h
    exact List.inj_on_of_nodup_map nodup_names (mem_all m) (mem_all n) h
  · exact congrArg name

/-- A metric that no aggregate answers and that is not derived needs a distribution. -/
theorem computation_eq_distribution {m : Metric} (haggregate : m.aggregateForm? = none)
    (hderived : m.computation ≠ .derived) : m.computation = .distribution := by
  have h := aggregateForm?_isSome_iff m
  rw [haggregate] at h
  cases hc : m.computation with
  | aggregate => simp [hc] at h
  | distribution => rfl
  | derived => exact absurd hc hderived

end Metric

/-- What is requested is listed once. -/
theorem nodup_resolve {metrics : List Metric} {resolved : List ResolvedMetric}
    (h : resolve metrics = .ok resolved) : (resolved.map ResolvedMetric.metric).Nodup := by
  unfold resolve at h
  split at h
  · next closure _ =>
    cases h
    rw [List.map_map]
    change ((Metric.ordered closure).map fun m ↦ m).Nodup
    rw [List.map_id']
    exact Metric.nodup_all.filter _
  · cases h

/-- Nothing takes nothing. -/
theorem resolve_nil : resolve [] = .ok [] := by
  have himplied : Metric.withImplied [] = [] := by decide
  simp [resolve, himplied, Graph.topologicalOrder, Graph.visit, Metric.ordered]

/-- The key of a metric of a column. -/
def ColumnProfile.metricKey (p : ColumnProfile) (m : Metric) : MetricKey :=
  .ofColumn p.key m.name

/-- A column measures each metric under a key of its own. -/
theorem ColumnProfile.metricKey_inj {p : ColumnProfile} {m n : Metric} :
    p.metricKey m = p.metricKey n ↔ m = n := by
  simp [metricKey, MetricKey.ofColumn, Metric.name_inj]

/-- The keys of columns among those requested. -/
def columnKeys (requests : List MetricRequest) : List MetricKey :=
  (requests.map MetricRequest.key).filter fun key ↦ key.column.isSome

@[simp] theorem columnKeys_append (requests others : List MetricRequest) :
    columnKeys (requests ++ others) = columnKeys requests ++ columnKeys others := by
  simp [columnKeys]

@[simp] theorem columnKeys_rowCount (internal : Bool) (requests : List MetricRequest) :
    columnKeys (rowCountRequest internal :: requests) = columnKeys requests := by
  simp [columnKeys, rowCountRequest, MetricKey.ofTable]

@[simp] theorem columnKeys_metric (p : ColumnProfile) (m : Metric) (internal : Bool)
    (requests : List MetricRequest) :
    columnKeys (⟨p.metricKey m, some m, internal⟩ :: requests) =
      p.metricKey m :: columnKeys requests := by
  simp [columnKeys, ColumnProfile.metricKey, MetricKey.ofColumn]

theorem mem_columnKeys {key : MetricKey} {requests : List MetricRequest} :
    key ∈ columnKeys requests ↔
      key.column.isSome = true ∧ ∃ r ∈ requests, r.key = key := by
  rw [columnKeys, List.mem_filter, List.mem_map, and_comm]

namespace ColumnPlan

/-- A metric that is obtained is requested in front of the others, and is no issue. -/
theorem findings_produce (p : ColumnProfile) (r : ResolvedMetric) (how : Producer)
    (c : ColumnPlan) : (c.produce p r how).findings =
      ⟨⟨p.metricKey r.metric, some r.metric, r.internal⟩ :: c.findings.requests,
        c.findings.issues⟩ := by
  cases how <;> rfl

/-- A metric that cannot be had is not requested. -/
theorem requests_drop (p : ColumnProfile) (r : ResolvedMetric) (o : Obstacle)
    (c : ColumnPlan) : (c.drop p r o).findings.requests = c.findings.requests := by
  unfold drop
  split <;> rfl

/-- The keys that a column's metrics are obtained under. -/
def producedKeys (p : ColumnProfile) (c : ColumnPlan) : List MetricKey :=
  c.aggregates.map AggregateExpr.key ++ c.distributions.map (fun d ↦ p.metricKey d.metric) ++
    c.derived.map DerivedMetric.key

/-- What the plan of a column's metrics keeps to: it requests metrics of the column and the number
of rows only, each metric once, and obtains every metric it requests in exactly one way. -/
structure Coherent (p : ColumnProfile) (c : ColumnPlan) : Prop where
  requests : ∀ r ∈ c.findings.requests, r = rowCountRequest true ∨
    ∃ m internal, m ≠ .rowCount ∧ r = ⟨p.metricKey m, some m, internal⟩
  distinct : (columnKeys c.findings.requests).Nodup
  produced : (c.producedKeys p).Perm (columnKeys c.findings.requests)
  distributions : ∀ d ∈ c.distributions, d.metric.computation = .distribution ∧
    ⟨p.metricKey d.metric, some d.metric, d.internal⟩ ∈ c.findings.requests
  derived : ∀ d ∈ c.derived, d.key = p.metricKey d.metric ∧ d.metric.computation = .derived ∧
    ⟨d.key, some d.metric, d.internal⟩ ∈ c.findings.requests

theorem coherent_empty (p : ColumnProfile) : empty.Coherent p := by
  constructor <;> simp [empty, producedKeys, columnKeys]

/-- Asking for the number of rows besides changes nothing about the metrics of the column. -/
theorem Coherent.request {p : ColumnProfile} {c : ColumnPlan} (h : c.Coherent p) :
    (c.request (rowCountRequest true)).Coherent p where
  requests := by
    intro r hr
    rcases List.mem_cons.mp hr with rfl | hr
    · exact .inl rfl
    · exact h.requests r hr
  distinct := by
    simpa [ColumnPlan.request] using h.distinct
  produced := by
    simpa [ColumnPlan.request, producedKeys] using h.produced
  distributions := by
    intro d hd
    obtain ⟨hc, hr⟩ := h.distributions d hd
    exact ⟨hc, List.mem_cons_of_mem _ hr⟩
  derived := by
    intro d hd
    obtain ⟨hk, hc, hr⟩ := h.derived d hd
    exact ⟨hk, hc, List.mem_cons_of_mem _ hr⟩

/-- Dropping a metric at most reports it. -/
theorem Coherent.drop {p : ColumnProfile} {c : ColumnPlan} (h : c.Coherent p) (r : ResolvedMetric)
    (o : Obstacle) : (c.drop p r o).Coherent p := by
  unfold ColumnPlan.drop
  split
  · exact h
  · exact ⟨h.requests, h.distinct, h.produced, h.distributions, h.derived⟩

/-- The way to obtain a metric fits what the catalog says of it. -/
def Fits (m : Metric) : Producer → Prop
  | .aggregate _ => True
  | .distribution => m.computation = .distribution
  | .derived => m.computation = .derived

/-- A new metric joins the requests and exactly one of the lists. -/
theorem Coherent.produce {p : ColumnProfile} {c : ColumnPlan} (h : c.Coherent p)
    {r : ResolvedMetric} {how : Producer} (hrow : r.metric ≠ .rowCount)
    (hnew : p.metricKey r.metric ∉ columnKeys c.findings.requests) (hfits : Fits r.metric how) :
    (c.produce p r how).Coherent p := by
  have hrequests := congrArg Findings.requests (findings_produce p r how c)
  have hkept : ∀ q ∈ c.findings.requests, q ∈ (c.produce p r how).findings.requests := by
    intro q hq
    rw [hrequests]
    exact List.mem_cons_of_mem _ hq
  refine ⟨?_, ?_, ?_, ?_, ?_⟩
  · intro q hq
    rw [hrequests] at hq
    rcases List.mem_cons.mp hq with rfl | hq
    · exact .inr ⟨r.metric, r.internal, hrow, rfl⟩
    · exact h.requests q hq
  · rw [hrequests, columnKeys_metric, List.nodup_cons]
    exact ⟨hnew, h.distinct⟩
  · rw [hrequests, columnKeys_metric]
    refine List.Perm.trans ?_ (h.produced.cons (p.metricKey r.metric))
    cases how with
    | aggregate sql => exact List.Perm.refl _
    | distribution =>
      simp only [ColumnPlan.produce, ColumnPlan.request, producedKeys, List.map_cons,
        List.append_assoc, List.cons_append]
      exact List.perm_middle
    | derived =>
      simp only [ColumnPlan.produce, ColumnPlan.request, producedKeys, List.map_cons]
      exact List.perm_middle
  · intro d hd
    have hold : d ∈ c.distributions → d.metric.computation = .distribution ∧
        ⟨p.metricKey d.metric, some d.metric, d.internal⟩ ∈
          (c.produce p r how).findings.requests := by
      intro hd
      obtain ⟨hc, hr⟩ := h.distributions d hd
      exact ⟨hc, hkept _ hr⟩
    cases how with
    | aggregate sql => exact hold hd
    | derived => exact hold hd
    | distribution =>
      rcases List.mem_cons.mp hd with rfl | hd
      · exact ⟨hfits, by rw [hrequests]; exact List.mem_cons_self⟩
      · exact hold hd
  · intro d hd
    have hold : d ∈ c.derived → d.key = p.metricKey d.metric ∧
        d.metric.computation = .derived ∧
        ⟨d.key, some d.metric, d.internal⟩ ∈ (c.produce p r how).findings.requests := by
      intro hd
      obtain ⟨hk, hc, hr⟩ := h.derived d hd
      exact ⟨hk, hc, hkept _ hr⟩
    cases how with
    | aggregate sql => exact hold hd
    | distribution => exact hold hd
    | derived =>
      rcases List.mem_cons.mp hd with rfl | hd
      · exact ⟨rfl, hfits, by rw [hrequests]; exact List.mem_cons_self⟩
      · exact hold hd

end ColumnPlan

/-- How a metric can come to be obtained: from an aggregate that the dialect can write, by
derivation, or by a query over the values of the column. All that it needs is there. -/
theorem producer_cases {w : Warehouse} {p : ColumnProfile}
    {conditions : Except DialectError ColumnConditions} {available : List Metric} {m : Metric}
    {how : Producer} (h : producer w p conditions available m = .ok how) :
    (∀ d ∈ m.dependencies, d ∈ available) ∧
    ((∃ form c sql, m.aggregateForm? = some form ∧ conditionsFor w conditions m = .ok c ∧
        form.sql w p c = .ok sql ∧ how = .aggregate sql) ∨
      (m.computation = .derived ∧ how = .derived) ∨
      (m.computation = .distribution ∧ (∃ c, conditionsFor w conditions m = .ok c) ∧
        how = .distribution)) := by
  unfold producer at h
  split at h
  · cases h
  · next hfound =>
    refine ⟨?_, ?_⟩
    · intro d hd
      have hd' := List.find?_eq_none.mp hfound d hd
      simpa using hd'
    split at h
    · next form hform =>
      left
      cases hc : conditionsFor w conditions m with
      | error e => simp [hc, Except.bind, Except.mapError] at h
      | ok c =>
        cases hs : form.sql w p c with
        | error e => simp [hc, hs, Except.bind, Except.map, Except.mapError] at h
        | ok sql =>
          simp only [hc, hs, Except.bind, Except.map, Except.mapError] at h
          cases h
          exact ⟨form, c, sql, hform, rfl, hs, rfl⟩
    · next hform =>
      right
      split at h
      · next hderived =>
        cases h
        exact .inl ⟨hderived, rfl⟩
      · next hderived =>
        right
        cases hc : conditionsFor w conditions m with
        | error e => simp [hc, Except.map, Except.mapError] at h
        | ok c =>
          simp only [hc, Except.map, Except.mapError] at h
          cases h
          exact ⟨Metric.computation_eq_distribution hform hderived, ⟨c, rfl⟩, rfl⟩

/-- A producer is found only where the catalog has one. -/
theorem fits_of_producer {w : Warehouse} {p : ColumnProfile}
    {conditions : Except DialectError ColumnConditions} {available : List Metric} {m : Metric}
    {how : Producer} (h : producer w p conditions available m = .ok how) :
    ColumnPlan.Fits m how := by
  obtain ⟨_, ⟨form, c, sql, _, _, _, rfl⟩ | ⟨hm, rfl⟩ | ⟨hm, _, rfl⟩⟩ := producer_cases h
  · exact True.intro
  · exact hm
  · exact hm

namespace ColumnPlan

variable {w : Warehouse} {p : ColumnProfile} {conditions : Except DialectError ColumnConditions}

/-- Only metrics on the list are requested of the column. -/
theorem exists_of_mem_columnKeys {available : List Metric} {resolved : List ResolvedMetric}
    {key : MetricKey}
    (h : key ∈ columnKeys (ofMetrics w p conditions available resolved).findings.requests) :
    ∃ r ∈ resolved, key = p.metricKey r.metric := by
  induction resolved generalizing available with
  | nil => simp [ofMetrics, empty, columnKeys] at h
  | cons r rest ih =>
    have hrest : ∀ {available}, key ∈ columnKeys
        (ofMetrics w p conditions available rest).findings.requests →
        ∃ r' ∈ r :: rest, key = p.metricKey r'.metric := by
      intro available hk
      obtain ⟨r', hr', hk'⟩ := ih hk
      exact ⟨r', List.mem_cons_of_mem _ hr', hk'⟩
    unfold ofMetrics at h
    split at h
    · simp only [ColumnPlan.request, columnKeys_rowCount] at h
      exact hrest h
    · split at h
      · rw [findings_produce, columnKeys_metric] at h
        rcases List.mem_cons.mp h with rfl | h
        · exact ⟨r, List.mem_cons_self, rfl⟩
        · exact hrest h
      · rw [requests_drop] at h
        exact hrest h

/-- Planning metrics that are listed once obtains each in one way. -/
theorem coherent_ofMetrics (available : List Metric) {resolved : List ResolvedMetric}
    (hnodup : (resolved.map ResolvedMetric.metric).Nodup) :
    (ofMetrics w p conditions available resolved).Coherent p := by
  induction resolved generalizing available with
  | nil => exact coherent_empty p
  | cons r rest ih =>
    rw [List.map_cons, List.nodup_cons] at hnodup
    unfold ofMetrics
    split
    · exact (ih _ hnodup.2).request
    · next hrow =>
      split
      · next how hhow =>
        refine (ih _ hnodup.2).produce hrow ?_ (fits_of_producer hhow)
        intro hk
        obtain ⟨r', hr', hkey⟩ := exists_of_mem_columnKeys hk
        rw [ColumnProfile.metricKey_inj] at hkey
        exact hnodup.1 (List.mem_map.mpr ⟨r', hr', hkey.symm⟩)
      · exact (ih _ hnodup.2).drop r _

/-- Whatever is wanted of a column, each metric of it is obtained in one way. -/
theorem coherent_ofWanted (metrics : List Metric) :
    (ofWanted w p conditions metrics).Coherent p := by
  unfold ofWanted
  split
  · next resolved h => exact coherent_ofMetrics [] (nodup_resolve h)
  · exact ⟨(coherent_empty p).requests, (coherent_empty p).distinct, (coherent_empty p).produced,
      (coherent_empty p).distributions, (coherent_empty p).derived⟩

/-- Nothing wanted is nothing planned. -/
theorem ofWanted_nil : ofWanted w p conditions [] = empty := by
  unfold ofWanted
  rw [resolve_nil]
  rfl

private theorem distributions_ofMetrics_error {e : DialectError} (available : List Metric)
    (resolved : List ResolvedMetric) :
    (ofMetrics w p (.error e) available resolved).distributions = [] := by
  induction resolved generalizing available with
  | nil => rfl
  | cons r rest ih =>
    unfold ofMetrics
    split
    · exact ih _
    · split
      · next how hhow =>
        obtain ⟨_, ⟨form, c, sql, _, _, _, rfl⟩ | ⟨_, rfl⟩ | ⟨_, ⟨c, hc⟩, rfl⟩⟩ :=
          producer_cases hhow
        · exact ih _
        · exact ih _
        · cases hc
      · unfold ColumnPlan.drop
        split
        · exact ih _
        · exact ih _

/-- Without conditions no metric needs a distribution query. -/
theorem distributions_of_error {e : DialectError} (metrics : List Metric) :
    (ofWanted w p (.error e) metrics).distributions = [] := by
  unfold ofWanted
  split
  · exact distributions_ofMetrics_error [] _
  · rfl

end ColumnPlan

end DataQuality
