import Mathlib.Data.List.Chain
import Mathlib.Data.Set.Finite.List
import DataQuality.Graph

/-!
# Orders and cycles

A search that sets out from some roots either lists all nodes that they lead to, each after the
nodes that its own edges lead to, or it comes upon a cycle. Which of the two happens depends on the
edges alone: a list is returned exactly if the roots do not lead into a cycle.
-/

namespace DataQuality

namespace Graph

variable {α : Type}

/-! ### What roots lead to -/

/-- A node that one of the roots leads to, the roots themselves included. -/
def Reached (edges : α → List α) (roots : List α) (n : α) : Prop :=
  ∃ root ∈ roots, Relation.ReflTransGen (fun a b ↦ b ∈ edges a) root n

/-- The roots lead to a node that leads back to itself. -/
def LeadsIntoCycle (edges : α → List α) (roots : List α) : Prop :=
  ∃ n, Reached edges roots n ∧ Relation.TransGen (fun a b ↦ b ∈ edges a) n n

variable {edges : α → List α} {roots : List α}

theorem Reached.root {n : α} (h : n ∈ roots) : Reached edges roots n := ⟨n, h, .refl⟩

theorem Reached.step {n m : α} (h : Reached edges roots n) (hm : m ∈ edges n) :
    Reached edges roots m := by
  obtain ⟨root, hroot, hpath⟩ := h
  exact ⟨root, hroot, hpath.tail hm⟩

/-- What holds of the roots and passes along edges holds of all nodes they lead to. -/
theorem Reached.induction {p : α → Prop} {n : α} (h : Reached edges roots n)
    (hroots : ∀ root ∈ roots, p root) (hstep : ∀ a, p a → ∀ b ∈ edges a, p b) : p n := by
  obtain ⟨root, hroot, hpath⟩ := h
  induction hpath with
  | refl => exact hroots root hroot
  | tail _ hedge ih => exact hstep _ ih _ hedge

/-- A way along edges from a node back to it, with the node at both ends and no other node
twice. -/
structure IsCycle (edges : α → List α) (roots cycle : List α) : Prop where
  closed : ∃ n inner, cycle = n :: (inner ++ [n])
  distinct : cycle.dropLast.Nodup
  joined : cycle.IsChain fun a b ↦ b ∈ edges a
  reached : ∀ n ∈ cycle, Reached edges roots n

theorem IsCycle.leadsIntoCycle {cycle : List α} (h : IsCycle edges roots cycle) :
    LeadsIntoCycle edges roots := by
  obtain ⟨n, inner, rfl⟩ := h.closed
  have hback : ∀ a, (a :: (inner ++ [n])).IsChain (fun a b ↦ b ∈ edges a) →
      Relation.TransGen (fun a b ↦ b ∈ edges a) a n := by
    clear h
    intro a hchain
    induction inner generalizing a with
    | nil => exact .single (by simpa using hchain)
    | cons b rest ih =>
      obtain ⟨hedge, hrest⟩ := List.isChain_cons_cons.mp hchain
      exact .head hedge (ih b hrest)
  exact ⟨n, h.reached n List.mem_cons_self, hback n h.joined⟩

variable [DecidableEq α]

/-- A list without repetitions of nodes that the roots lead to, each after those that its edges
lead to. -/
structure Settled (edges : α → List α) (roots order : List α) : Prop where
  nodup : order.Nodup
  later : ∀ n ∈ order, ∀ m ∈ edges n, order.idxOf m < order.idxOf n
  reached : ∀ n ∈ order, Reached edges roots n

/-- An order of all nodes that the roots lead to. -/
structure IsOrder (edges : α → List α) (roots order : List α) : Prop where
  mem_iff : ∀ n, n ∈ order ↔ Reached edges roots n
  nodup : order.Nodup
  later : ∀ n ∈ order, ∀ m ∈ edges n, order.idxOf m < order.idxOf n

namespace Settled

variable {order : List α}

theorem mem_of_edge (h : Settled edges roots order) {n m : α} (hn : n ∈ order)
    (hm : m ∈ edges n) : m ∈ order :=
  List.idxOf_lt_length_iff.mp ((h.later n hn m hm).trans (List.idxOf_lt_length_of_mem hn))

/-- A node can be added as soon as its edges lead to listed nodes only. -/
theorem concat (h : Settled edges roots order) {n : α} (hnew : n ∉ order)
    (hedges : ∀ m ∈ edges n, m ∈ order) (hn : Reached edges roots n) :
    Settled edges roots (order ++ [n]) where
  nodup := by simpa using h.nodup.concat hnew
  later := by
    intro k hk m hm
    obtain hk | hk := List.mem_append.mp hk
    · rw [List.idxOf_append_of_mem hk, List.idxOf_append_of_mem (h.mem_of_edge hk hm)]
      exact h.later k hk m hm
    · obtain rfl := List.mem_singleton.mp hk
      rw [List.idxOf_append_of_mem (hedges m hm), List.idxOf_append_of_notMem hnew]
      exact Nat.lt_add_right _ (List.idxOf_lt_length_of_mem (hedges m hm))
  reached := by
    intro k hk
    obtain hk | hk := List.mem_append.mp hk
    · exact h.reached k hk
    · exact List.mem_singleton.mp hk ▸ hn

/-- A list that holds the roots holds all that they lead to. -/
theorem isOrder (h : Settled edges roots order) (hroots : ∀ n ∈ roots, n ∈ order) :
    IsOrder edges roots order where
  mem_iff n := ⟨h.reached n, fun hn ↦ hn.induction hroots fun _ ha _ hb ↦ h.mem_of_edge ha hb⟩
  nodup := h.nodup
  later := h.later

end Settled

/-- Where there is an order, every way along edges leads to the front of it, so none leads back. -/
theorem IsOrder.not_leadsIntoCycle {order : List α} (h : IsOrder edges roots order) :
    ¬ LeadsIntoCycle edges roots := by
  rintro ⟨n, hn, hcycle⟩
  have hfront : ∀ m, Relation.TransGen (fun a b ↦ b ∈ edges a) n m →
      Reached edges roots m ∧ order.idxOf m < order.idxOf n := by
    intro m hm
    induction hm with
    | single hedge => exact ⟨hn.step hedge, h.later n ((h.mem_iff n).mpr hn) _ hedge⟩
    | tail _ hedge ih =>
      exact ⟨ih.1.step hedge, (h.later _ ((h.mem_iff _).mpr ih.1) _ hedge).trans ih.2⟩
  exact Nat.lt_irrefl _ (hfront n hcycle).2

/-! ### The search -/

/-- Where a search stands: its path leads along edges to each node of the work, and the nodes dealt
with are settled and not on the path. -/
structure Stands (edges : α → List α) (roots path order work : List α) : Prop where
  joined : ∀ n ∈ work, (path ++ [n]).IsChain fun a b ↦ b ∈ edges a
  fresh : path.Nodup
  onPath : ∀ n ∈ path, Reached edges roots n
  inWork : ∀ n ∈ work, Reached edges roots n
  apart : ∀ n ∈ path, n ∉ order
  settled : Settled edges roots order

namespace Stands

variable {path order rest : List α} {n : α}

/-- A search that has dealt with a node goes on with the rest. -/
theorem goOn (h : Stands edges roots path order (n :: rest)) {done : List α}
    (hapart : ∀ m ∈ path, m ∉ done) (hdone : Settled edges roots done) :
    Stands edges roots path done rest where
  joined m hm := h.joined m (List.mem_cons_of_mem n hm)
  fresh := h.fresh
  onPath := h.onPath
  inWork m hm := h.inWork m (List.mem_cons_of_mem n hm)
  apart := hapart
  settled := hdone

/-- A search that meets a new node takes it into its path and goes where its edges lead. -/
theorem descend (h : Stands edges roots path order (n :: rest)) (horder : n ∉ order)
    (hpath : n ∉ path) : Stands edges roots (path ++ [n]) order (edges n) where
  joined m hm := by
    have hjoined := h.joined n List.mem_cons_self
    rw [List.append_assoc, List.singleton_append, List.isChain_append_cons_cons]
    exact ⟨hjoined, hm, .singleton m⟩
  fresh := by simpa using h.fresh.concat hpath
  onPath m hm := by
    obtain hm | hm := List.mem_append.mp hm
    · exact h.onPath m hm
    · exact List.mem_singleton.mp hm ▸ h.inWork n List.mem_cons_self
  inWork m hm := (h.inWork n List.mem_cons_self).step hm
  apart m hm := by
    obtain hm | hm := List.mem_append.mp hm
    · exact h.apart m hm
    · exact List.mem_singleton.mp hm ▸ horder
  settled := h.settled

/-- A search that meets a node of its path has gone round a cycle. -/
theorem isCycle (h : Stands edges roots path order (n :: rest)) (hpath : n ∈ path) :
    IsCycle edges roots (path.drop (path.idxOf n) ++ [n]) := by
  obtain ⟨before, inner, hsplit, hbefore⟩ := List.eq_append_cons_of_mem hpath
  have hround : path.drop (path.idxOf n) = n :: inner := by
    rw [hsplit, List.idxOf_append_of_notMem hbefore, List.idxOf_cons_self, Nat.add_zero,
      List.drop_left]
  have hmem : ∀ m ∈ n :: inner, m ∈ path := fun m hm ↦ hsplit ▸ List.mem_append_right _ hm
  rw [hround]
  refine ⟨⟨n, inner, rfl⟩, ?_, ?_, ?_⟩
  · rw [List.dropLast_concat]
    exact (hsplit ▸ h.fresh).of_append_right
  · have hjoined := h.joined n List.mem_cons_self
    rw [hsplit, List.append_assoc] at hjoined
    exact hjoined.right_of_append
  · intro m hm
    obtain hm | hm := List.mem_append.mp hm
    · exact h.onPath m (hmem m hm)
    · exact List.mem_singleton.mp hm ▸ h.inWork n List.mem_cons_self

end Stands

/-- What a search comes to: it has dealt with its work and all that was dealt with before, or has
found a cycle. -/
theorem visit_cases {g : Graph α} {path order work : List α} (h : ∀ n ∈ work, n ∈ g.nodes)
    (hstands : Stands g.successors roots path order work) :
    (∃ done, g.visit path order work h = .ok done ∧ Settled g.successors roots done ∧
      (∀ n ∈ path, n ∉ done) ∧ (∀ n ∈ order, n ∈ done) ∧ ∀ n ∈ work, n ∈ done) ∨
    ∃ cycle, g.visit path order work h = .error cycle ∧ IsCycle g.successors roots cycle := by
  fun_induction g.visit path order work h with
  | case1 path order =>
    exact .inl ⟨order, rfl, hstands.settled, hstands.apart, fun _ hn ↦ hn, by simp⟩
  | case2 path order n rest _ _ hdone _ ih =>
    obtain ⟨done, hvisit, hsettled, hapart, hkept, hwork⟩ | hcycle :=
      ih (hstands.goOn hstands.apart hstands.settled)
    · exact .inl ⟨done, hvisit, hsettled, hapart, hkept,
        List.forall_mem_cons.mpr ⟨hkept n hdone, hwork⟩⟩
    · exact .inr hcycle
  | case3 path order n rest _ _ _ hpath => exact .inr ⟨_, rfl, hstands.isCycle hpath⟩
  | case4 path order n rest _ _ hnew hpath _ _ ihedges ihrest =>
    obtain ⟨inner, hinner, hsettled, hapart, hkept, hedges⟩ | ⟨cycle, hinner, hcycle⟩ :=
      ihedges (hstands.descend hnew hpath)
    · have hn : n ∉ inner := hapart n List.mem_concat_self
      have hmore := hsettled.concat hn hedges (hstands.inWork n List.mem_cons_self)
      have hapart' : ∀ m ∈ path, m ∉ inner ++ [n] := by
        intro m hm hmem
        obtain hmem | hmem := List.mem_append.mp hmem
        · exact hapart m (List.mem_append_left _ hm) hmem
        · exact hpath (List.mem_singleton.mp hmem ▸ hm)
      rw [hinner]
      obtain ⟨done, hvisit, hsettled', hapart'', hkept', hwork⟩ | hcycle :=
        ihrest inner (hstands.goOn hapart' hmore)
      · exact .inl ⟨done, hvisit, hsettled', hapart'',
          fun m hm ↦ hkept' m (List.mem_append_left _ (hkept m hm)),
          List.forall_mem_cons.mpr ⟨hkept' n List.mem_concat_self, hwork⟩⟩
      · exact .inr hcycle
    · rw [hinner]
      exact .inr ⟨cycle, rfl, hcycle⟩

/-- From the roots a search comes to an order or a cycle. -/
theorem topologicalOrder_cases (g : Graph α) {roots : List α} (h : ∀ n ∈ roots, n ∈ g.nodes) :
    (∃ order, g.topologicalOrder roots h = .ok order ∧ IsOrder g.successors roots order) ∨
    ∃ cycle, g.topologicalOrder roots h = .error cycle ∧ IsCycle g.successors roots cycle := by
  have hstands : Stands g.successors roots [] [] roots :=
    ⟨fun n _ ↦ .singleton n, .nil, by simp, fun n hn ↦ .root hn, by simp, ⟨.nil, by simp, by simp⟩⟩
  obtain ⟨order, hvisit, hsettled, -, -, hroots⟩ | hcycle := visit_cases h hstands
  · exact .inl ⟨order, hvisit, hsettled.isOrder hroots⟩
  · exact .inr hcycle

/-- Edges that lead from the roots to finitely many nodes make a graph, however many nodes they
join elsewhere; and whatever list of nodes it comes with, a search of it from the roots returns an
order of the nodes that they lead to, or else a cycle among these nodes. It returns an order exactly
if the roots do not lead into a cycle. -/
theorem topologicalOrder_eq_ok_iff {edges : α → List α} {roots : List α}
    (hfinite : {n | Reached edges roots n}.Finite) :
    (∃ g : Graph α, g.successors = edges ∧ ∀ n ∈ roots, n ∈ g.nodes) ∧
    ∀ (g : Graph α) (h : ∀ n ∈ roots, n ∈ g.nodes), g.successors = edges →
      ((∃ order, g.topologicalOrder roots h = .ok order) ↔ ¬ LeadsIntoCycle edges roots) ∧
      (∀ order, g.topologicalOrder roots h = .ok order → IsOrder edges roots order) ∧
      ∀ cycle, g.topologicalOrder roots h = .error cycle → IsCycle edges roots cycle := by
  constructor
  · obtain ⟨nodes, hnodes⟩ : ∃ nodes : List α, ∀ n, n ∈ nodes ↔ Reached edges roots n :=
      ⟨hfinite.toFinset.toList, by simp⟩
    refine ⟨⟨nodes, edges, fun n hn m hm ↦ ?_⟩, rfl, fun n hn ↦ (hnodes n).mpr (.root hn)⟩
    exact (hnodes m).mpr (((hnodes n).mp hn).step hm)
  · rintro g h rfl
    obtain ⟨order, hok, horder⟩ | ⟨cycle, herror, hcycle⟩ := g.topologicalOrder_cases h
    · simp only [hok, Except.ok.injEq, reduceCtorEq, false_imp_iff, implies_true, and_true]
      exact ⟨iff_of_true ⟨order, rfl⟩ horder.not_leadsIntoCycle, fun _ heq ↦ heq ▸ horder⟩
    · simp only [herror, Except.error.injEq, reduceCtorEq, false_imp_iff, implies_true, true_and]
      exact ⟨iff_of_false (by simp) (not_not_intro hcycle.leadsIntoCycle), fun _ heq ↦ heq ▸ hcycle⟩

/-- Three numbers in a circle; from any other number the edges lead on without end. -/
def circle (n : Nat) : List Nat := if n < 3 then [(n + 1) % 3] else [n + 1]

/-- From a number of the circle a search comes upon a cycle. -/
theorem topologicalOrder_circle :
    {n | Reached circle [0] n}.Finite ∧
      ∃ (g : Graph Nat) (h : ∀ n ∈ [0], n ∈ g.nodes) (cycle : List Nat),
        g.topologicalOrder [0] h = .error cycle ∧ IsCycle circle [0] cycle := by
  have hfinite : {n | Reached circle [0] n}.Finite := by
    refine (Set.finite_lt_nat 3).subset fun n hn ↦ hn.induction (by decide) fun a ha b hb ↦ ?_
    rw [circle, if_pos (show a < 3 from ha), List.mem_singleton] at hb
    subst hb
    exact Nat.mod_lt _ (by decide)
  have hround : LeadsIntoCycle circle [0] :=
    ⟨0, .root (by decide), .tail (.tail (.single (by decide : 1 ∈ circle 0))
      (by decide : 2 ∈ circle 1)) (by decide : 0 ∈ circle 2)⟩
  obtain ⟨⟨g, hedges, hroots⟩, hsearch⟩ := topologicalOrder_eq_ok_iff hfinite
  obtain ⟨hok, -, herror⟩ := hsearch g hroots hedges
  refine ⟨hfinite, g, hroots, ?_⟩
  cases hresult : g.topologicalOrder [0] hroots with
  | ok order => exact absurd hround (hok.mp ⟨order, hresult⟩)
  | error cycle => exact ⟨cycle, rfl, herror cycle hresult⟩

end Graph

end DataQuality
