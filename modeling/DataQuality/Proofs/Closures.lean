import Mathlib.Order.Closure
import Mathlib.Order.CompletePartialOrder
import DataQuality.Catalog.Closure
import DataQuality.Proofs.DependencyOrders

/-!
# Completed requests

The catalog has no cycle, since each metric comes after those it depends on, so every request can be
completed. A request is complete if it lacks nothing that its metrics are computed from or that
comes along with them. It takes one look at what comes along with the metrics asked for: what they
are computed from brings along nothing new.
-/

namespace DataQuality

namespace Metric

/-! ### The tables of the catalog -/

/-- In the catalog each metric comes after those it depends on. -/
theorem idxOf_lt_of_mem_dependencies {m d : Metric} (h : d ∈ m.dependencies) :
    all.idxOf d < all.idxOf m := by
  revert d
  cases m <;> decide

/-- What a metric is computed from brings along nothing but what the metric brings along. -/
theorem implied_of_mem_dependencies {m d i : Metric} (hd : d ∈ m.dependencies)
    (hi : i ∈ d.implied) : i ∈ m.implied := by
  have htable : ∀ d ∈ m.dependencies, ∀ i ∈ d.implied, i ∈ m.implied := by
    cases m <;> decide
  exact htable d hd i hi

/-- What comes along brings along nothing more. -/
theorem implied_trans {m i j : Metric} (hi : i ∈ m.implied) (hj : j ∈ i.implied) :
    j ∈ m.implied := by
  have htable : ∀ i ∈ m.implied, ∀ j ∈ i.implied, j ∈ m.implied := by
    cases m <;> decide
  exact htable i hi j hj

theorem pairwise_all : all.Pairwise fun a b ↦ all.idxOf a < all.idxOf b := by
  refine List.pairwise_iff_getElem.mpr fun i j hi hj hij ↦ ?_
  rwa [nodup_all.idxOf_getElem, nodup_all.idxOf_getElem]

theorem mem_withImplied {requested : List Metric} {m : Metric} :
    m ∈ withImplied requested ↔ m ∈ requested ∨ ∃ r ∈ requested, m ∈ r.implied := by
  rw [withImplied, mem_ordered, List.mem_append, List.mem_flatMap]

/-! ### Complete sets -/

/-- The set has all metrics that its metrics are computed from and all that come along with them. -/
def IsComplete (ms : Set Metric) : Prop :=
  ∀ m ∈ ms, (∀ d ∈ m.dependencies, d ∈ ms) ∧ ∀ i ∈ m.implied, i ∈ ms

theorem IsComplete.union {ms ns : Set Metric} (hms : IsComplete ms) (hns : IsComplete ns) :
    IsComplete (ms ∪ ns) := by
  rintro m (hm | hm)
  · exact ⟨fun d hd ↦ .inl ((hms m hm).1 d hd), fun i hi ↦ .inl ((hms m hm).2 i hi)⟩
  · exact ⟨fun d hd ↦ .inr ((hns m hm).1 d hd), fun i hi ↦ .inr ((hns m hm).2 i hi)⟩

/-- The least complete set around a set of metrics. -/
def completion : ClosureOperator (Set Metric) :=
  .ofCompletePred IsComplete fun _ h m hm ↦
    ⟨fun d hd s hs ↦ (h s hs m (hm s hs)).1 d hd, fun i hi s hs ↦ (h s hs m (hm s hs)).2 i hi⟩

theorem isLeast_completion (ms : Set Metric) :
    IsLeast {c | ms ⊆ c ∧ IsComplete c} (completion ms) :=
  ⟨⟨completion.le_closure ms, completion.isClosed_closure ms⟩,
    fun _ hc ↦ ClosureOperator.closure_min hc.1 hc.2⟩

/-- Sets can be completed one by one. -/
theorem completion_union (ms ns : Set Metric) :
    completion (ms ∪ ns) = completion ms ∪ completion ns := by
  obtain ⟨⟨hms, hcompletems⟩, -⟩ := isLeast_completion ms
  obtain ⟨⟨hns, hcompletens⟩, -⟩ := isLeast_completion ns
  refine Set.Subset.antisymm ?_ ?_
  · exact ClosureOperator.closure_min (Set.union_subset_union hms hns)
      (hcompletems.union hcompletens)
  · exact Set.union_subset (completion.monotone Set.subset_union_left)
      (completion.monotone Set.subset_union_right)

/-- What a request leads to along dependencies, once with what comes along, is its completion. -/
theorem setOf_reached_eq_completion (requested : List Metric) :
    {m | Graph.Reached dependencies (withImplied requested) m} =
      completion {m | m ∈ requested} := by
  have hleast : IsLeast {c | {m | m ∈ requested} ⊆ c ∧ IsComplete c}
      {m | Graph.Reached dependencies (withImplied requested) m} := by
    refine ⟨⟨fun m hm ↦ .root (mem_withImplied.mpr (.inl hm)), fun m hm ↦ ⟨fun d ↦ ?_, ?_⟩⟩,
      fun c ⟨hc, hcomplete⟩ m hm ↦ ?_⟩
    · exact Graph.Reached.step hm
    · -- All that comes along with what is reached was among the roots already.
      have halong : ∀ i ∈ m.implied, i ∈ withImplied requested := by
        refine Graph.Reached.induction (p := fun a ↦ ∀ i ∈ a.implied, i ∈ withImplied requested) hm
          (fun r hr i hi ↦ mem_withImplied.mpr (.inr ?_))
          fun a ha d hd i hi ↦ ha i (implied_of_mem_dependencies hd hi)
        obtain hr | ⟨r', hr', hr⟩ := mem_withImplied.mp hr
        · exact ⟨r, hr, hi⟩
        · exact ⟨r', hr', implied_trans hr hi⟩
      exact fun i hi ↦ .root (halong i hi)
    · refine hm.induction (fun r hr ↦ ?_) fun a ha d ↦ (hcomplete a ha).1 d
      obtain hr | ⟨r', hr', hr⟩ := mem_withImplied.mp hr
      · exact hc hr
      · exact (hcomplete r' (hc hr')).2 r hr
  exact hleast.unique (isLeast_completion _)

end Metric

/-! ### Requests -/

/-- Along edges to smaller ranks there is no way back. -/
theorem Graph.not_leadsIntoCycle {α : Type} {edges : α → List α} {rank : α → Nat}
    (hrank : ∀ n, ∀ m ∈ edges n, rank m < rank n) (roots : List α) :
    ¬ LeadsIntoCycle edges roots := by
  rintro ⟨n, -, hcycle⟩
  have hless : ∀ m, Relation.TransGen (fun a b ↦ b ∈ edges a) n m → rank m < rank n := by
    intro m hm
    induction hm with
    | single hedge => exact hrank n _ hedge
    | tail _ hedge ih => exact (hrank _ _ hedge).trans ih
  exact Nat.lt_irrefl _ (hless n hcycle)

/-- Every request can be completed: what it takes is listed in catalog order, and it is internal
unless it was asked for. -/
theorem exists_resolve_eq (requested : List Metric) :
    ∃ closure, resolve requested =
        .ok ((Metric.ordered closure).map fun m ↦ ⟨m, !requested.contains m⟩) ∧
      ∀ m, m ∈ closure ↔ Graph.Reached Metric.dependencies (Metric.withImplied requested) m := by
  have hroots : ∀ m ∈ Metric.withImplied requested, m ∈ Metric.dependencyGraph.nodes :=
    fun m _ ↦ Metric.mem_all m
  unfold resolve
  obtain ⟨closure, hok, horder⟩ | ⟨cycle, -, hcycle⟩ :=
    Metric.dependencyGraph.topologicalOrder_cases hroots
  · rw [hok]
    exact ⟨closure, rfl, horder.mem_iff⟩
  · exact absurd hcycle.leadsIntoCycle
      (Graph.not_leadsIntoCycle (fun _ _ ↦ Metric.idxOf_lt_of_mem_dependencies) _)

/-- What was asked for is there, and is not internal; all else is. -/
theorem exists_resolve (requested : List Metric) :
    ∃ resolved, resolve requested = .ok resolved ∧
      (∀ m ∈ requested, ⟨m, false⟩ ∈ resolved) ∧
      ∀ r ∈ resolved, r.internal = false → r.metric ∈ requested := by
  obtain ⟨closure, hresolve, hmem⟩ := exists_resolve_eq requested
  refine ⟨_, hresolve, fun m hm ↦ List.mem_map.mpr ⟨m, ?_, by simp [hm]⟩, fun r hr hflag ↦ ?_⟩
  · exact Metric.mem_ordered.mpr ((hmem m).mpr (.root (Metric.mem_withImplied.mpr (.inl hm))))
  · obtain ⟨m, _, rfl⟩ := List.mem_map.mp hr
    simpa using hflag

/-- A request takes the least complete set around it, each metric of it once, in catalog order and
so after those it is computed from; what was not asked for is internal. As the completion is a
closure operator, a request takes what it asks for, a larger one takes no less, and asking for all
that was taken takes nothing more; requests that are made together take what they take alone. -/
theorem resolve_completes :
    (∀ requested : List Metric, ∃ resolved, resolve requested = .ok resolved ∧
      {m | m ∈ resolved.map ResolvedMetric.metric} = Metric.completion {m | m ∈ requested} ∧
      (resolved.map ResolvedMetric.metric).Pairwise
        (fun a b ↦ Metric.all.idxOf a < Metric.all.idxOf b) ∧
      (∀ before r after, resolved = before ++ r :: after →
        ∀ d ∈ r.metric.dependencies, d ∈ before.map ResolvedMetric.metric) ∧
      ∀ r ∈ resolved, r.internal = true ↔ r.metric ∉ requested) ∧
    (∀ ms : Set Metric, IsLeast {c | ms ⊆ c ∧ Metric.IsComplete c} (Metric.completion ms)) ∧
    ∀ ms ns : Set Metric,
      Metric.completion (ms ∪ ns) = Metric.completion ms ∪ Metric.completion ns := by
  refine ⟨fun requested ↦ ?_, Metric.isLeast_completion, Metric.completion_union⟩
  obtain ⟨closure, hresolve, hmem⟩ := exists_resolve_eq requested
  have hmetrics : ((Metric.ordered closure).map fun m ↦
      (⟨m, !requested.contains m⟩ : ResolvedMetric)).map ResolvedMetric.metric =
        Metric.ordered closure := by
    rw [List.map_map]
    exact List.map_id' _
  have hsorted : (Metric.ordered closure).Pairwise
      fun a b ↦ Metric.all.idxOf a < Metric.all.idxOf b := Metric.pairwise_all.filter _
  refine ⟨_, hresolve, ?_, hmetrics.symm ▸ hsorted, fun before r after hsplit d hd ↦ ?_,
    fun r hr ↦ ?_⟩
  · rw [hmetrics, ← Metric.setOf_reached_eq_completion]
    ext m
    exact Metric.mem_ordered.trans (hmem m)
  · -- The dependency is listed, and neither as the metric itself nor behind it.
    rw [hsplit] at hmetrics
    rw [← hmetrics, List.map_append, List.map_cons] at hsorted
    have hr : r.metric ∈ Metric.ordered closure := by simp [← hmetrics]
    have hlisted : d ∈ Metric.ordered closure :=
      Metric.mem_ordered.mpr ((hmem d).mpr (((hmem _).mp (Metric.mem_ordered.mp hr)).step hd))
    rw [← hmetrics, List.map_append, List.map_cons, List.mem_append, List.mem_cons] at hlisted
    have hfront := Metric.idxOf_lt_of_mem_dependencies hd
    obtain hbefore | rfl | hafter := hlisted
    · exact hbefore
    · exact absurd hfront (Nat.lt_irrefl _)
    · have hbehind := List.rel_of_pairwise_cons (List.pairwise_append.mp hsorted).2.1 hafter
      exact absurd hfront hbehind.asymm
  · obtain ⟨m, _, rfl⟩ := List.mem_map.mp hr
    simp

end DataQuality
