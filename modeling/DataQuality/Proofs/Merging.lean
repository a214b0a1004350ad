import Mathlib.Data.List.Induction
import DataQuality.Plan.Build
import DataQuality.Proofs.KeyedLists

/-!
# Merged requests and issues

Requests are collected from many places and merged by key. What matters later is which keys there
are, that each is there once, and that a request is internal only if all requests of its key were.
-/

namespace DataQuality

/-! ### Requests -/

/-- One more request joins those merged before. -/
theorem mergeRequests_concat (requests : List MetricRequest) (r : MetricRequest) :
    mergeRequests (requests ++ [r]) = addRequest (mergeRequests requests) r := by
  simp [mergeRequests]

private theorem keys_addRequest (requests : List MetricRequest) (r : MetricRequest) :
    (addRequest requests r).map MetricRequest.key =
      if r.key ∈ requests.map MetricRequest.key then requests.map MetricRequest.key
      else requests.map MetricRequest.key ++ [r.key] := by
  by_cases h : ∃ q ∈ requests, q.key = r.key
  · have hm : r.key ∈ requests.map MetricRequest.key := by simpa using h
    have ha : (requests.any fun q ↦ q.key = r.key) = true := by simpa using h
    rw [if_pos hm, addRequest, if_pos ha, List.map_map]
    apply List.map_congr_left
    intro q _
    by_cases hq : q.key = r.key <;> simp [hq]
  · have hm : r.key ∉ requests.map MetricRequest.key := by simpa using h
    have ha : ¬ (requests.any fun q ↦ q.key = r.key) = true := by simpa using h
    rw [if_neg hm, addRequest, if_neg ha, List.map_append, List.map_singleton]

/-- A merged list has the keys that were requested. -/
theorem mem_keys_mergeRequests {key : MetricKey} {requests : List MetricRequest} :
    key ∈ (mergeRequests requests).map MetricRequest.key ↔
      key ∈ requests.map MetricRequest.key := by
  induction requests using List.reverseRecOn with
  | nil => rfl
  | append_singleton rest r ih =>
    rw [mergeRequests_concat, keys_addRequest, List.map_append, List.mem_append, ← ih]
    split
    · next h =>
      constructor
      · exact .inl
      · rintro (hk | hk)
        · exact hk
        · rw [List.map_singleton, List.mem_singleton] at hk
          exact hk ▸ h
    · rw [List.mem_append, List.map_singleton]

/-- A merged list has each key once. -/
theorem nodup_keys_mergeRequests (requests : List MetricRequest) :
    ((mergeRequests requests).map MetricRequest.key).Nodup := by
  induction requests using List.reverseRecOn with
  | nil => exact List.nodup_nil
  | append_singleton rest r ih =>
    rw [mergeRequests_concat, keys_addRequest]
    split
    · exact ih
    · next h =>
      rw [List.nodup_append]
      refine ⟨ih, by simp, ?_⟩
      intro a ha b hb hab
      rw [List.mem_singleton] at hb
      exact h (hb ▸ hab ▸ ha)

/-- A merged request is internal exactly when every request of its key was. -/
theorem internal_iff_of_mem_mergeRequests {requests : List MetricRequest} {r : MetricRequest}
    (h : r ∈ mergeRequests requests) :
    r.internal = true ↔ ∀ q ∈ requests, q.key = r.key → q.internal = true := by
  induction requests using List.reverseRecOn generalizing r with
  | nil => simp [mergeRequests] at h
  | append_singleton rest q ih =>
    have hkeys := @mem_keys_mergeRequests q.key rest
    rw [mergeRequests_concat, addRequest] at h
    split at h
    · obtain ⟨m, hm, rfl⟩ := List.mem_map.mp h
      by_cases hk : m.key = q.key
      · simp only [hk, if_true, Bool.and_eq_true, List.mem_append, List.mem_singleton]
        rw [ih hm, hk]
        constructor
        · rintro ⟨hrest, hq⟩ x (hx | rfl) hxk
          · exact hrest x hx hxk
          · exact hq
        · intro hall
          exact ⟨fun x hx ↦ hall x (.inl hx), hall q (.inr rfl) rfl⟩
      · simp only [hk, if_false, List.mem_append, List.mem_singleton]
        rw [ih hm]
        constructor
        · rintro hrest x (hx | rfl) hxk
          · exact hrest x hx hxk
          · exact absurd hxk.symm hk
        · exact fun hall x hx ↦ hall x (.inl hx)
    · next hnew =>
      have hfresh : q.key ∉ rest.map MetricRequest.key := by
        rw [← hkeys]
        simpa using hnew
      rcases List.mem_append.mp h with hm | hm
      · have hne : ¬ q.key = r.key := by
          intro hqr
          exact hfresh (hkeys.mp (List.mem_map.mpr ⟨r, hm, hqr.symm⟩))
        rw [ih hm]
        simp only [List.mem_append, List.mem_singleton]
        constructor
        · rintro hrest x (hx | rfl) hxk
          · exact hrest x hx hxk
          · exact absurd hxk hne
        · exact fun hall x hx ↦ hall x (.inl hx)
      · rw [List.mem_singleton] at hm
        subst hm
        simp only [List.mem_append, List.mem_singleton]
        constructor
        · rintro hr x (hx | rfl) hxk
          · exact absurd (List.mem_map.mpr ⟨x, hx, hxk⟩) hfresh
          · exact hr
        · exact fun hall ↦ hall r (.inr rfl) rfl

/-- A merged request says of its metric what one of the requests of its key said. -/
theorem exists_of_mem_mergeRequests {requests : List MetricRequest} {r : MetricRequest}
    (h : r ∈ mergeRequests requests) :
    ∃ q ∈ requests, q.key = r.key ∧ q.metric = r.metric := by
  induction requests using List.reverseRecOn generalizing r with
  | nil => simp [mergeRequests] at h
  | append_singleton rest q ih =>
    have hmerged : ∀ m ∈ mergeRequests rest,
        ∃ x ∈ rest ++ [q], x.key = m.key ∧ x.metric = m.metric := by
      intro m hm
      obtain ⟨x, hx, hxm⟩ := ih hm
      exact ⟨x, List.mem_append_left _ hx, hxm⟩
    rw [mergeRequests_concat, addRequest] at h
    split at h
    · obtain ⟨m, hm, rfl⟩ := List.mem_map.mp h
      have hsame := hmerged m hm
      split
      · exact hsame
      · exact hsame
    · rcases List.mem_append.mp h with hm | hm
      · exact hmerged r hm
      · rw [List.mem_singleton] at hm
        exact ⟨q, by simp, by rw [hm], by rw [hm]⟩

/-- In a list with each key once, the flag found for a key is that of its request. -/
theorem isInternal_of_mem {requests : List MetricRequest} {r : MetricRequest}
    (hnodup : (requests.map MetricRequest.key).Nodup) (h : r ∈ requests) :
    isInternal requests r.key = r.internal := by
  unfold isInternal
  rw [find?_key_of_mem hnodup h, Option.any_some]

/-! ### Issues -/

/-- One more issue joins those merged before. -/
theorem mergeIssues_concat (issues : List Issue) (i : Issue) :
    mergeIssues (issues ++ [i]) = addIssue (mergeIssues issues) i := by
  simp [mergeIssues]

/-- Merging loses no issue and makes none up. -/
@[simp] theorem mem_mergeIssues {i : Issue} {issues : List Issue} :
    i ∈ mergeIssues issues ↔ i ∈ issues := by
  induction issues using List.reverseRecOn with
  | nil => simp [mergeIssues]
  | append_singleton rest j ih =>
    rw [mergeIssues_concat, addIssue, List.mem_append, ← ih, List.mem_singleton]
    split
    · next h =>
      have hj : j ∈ mergeIssues rest := by simpa using h
      constructor
      · exact .inl
      · rintro (hi | rfl)
        · exact hi
        · exact hj
    · rw [List.mem_append, List.mem_singleton]

/-- Merging leaves no issue twice. -/
theorem nodup_mergeIssues (issues : List Issue) : (mergeIssues issues).Nodup := by
  induction issues using List.reverseRecOn with
  | nil => exact List.nodup_nil
  | append_singleton rest j ih =>
    rw [mergeIssues_concat, addIssue]
    split
    · exact ih
    · next h =>
      have hj : j ∉ mergeIssues rest := by simpa using h
      refine List.nodup_append.mpr ⟨ih, List.nodup_singleton j, ?_⟩
      rintro i hi k hk rfl
      exact hj (List.mem_singleton.mp hk ▸ hi)

/-- Nothing is left after merging only if nothing was there. -/
theorem eq_nil_of_mergeIssues {issues : List Issue} (h : mergeIssues issues = []) :
    issues = [] := by
  rw [List.eq_nil_iff_forall_not_mem] at h ⊢
  intro i hi
  exact h i (mem_mergeIssues.mpr hi)

end DataQuality
