/-!
# Dependency order

A finite directed graph and the order in which its nodes can be dealt with, every node after the
nodes it leads to. The search goes depth first from a list of roots; it gives up at the first node
it meets again on the path that it is on.
-/

namespace DataQuality

/-- The part of a directed graph that is finite and complete: the edges of its nodes end there. -/
structure Graph (α : Type) where
  nodes : List α
  successors : α → List α
  closed : ∀ n ∈ nodes, ∀ m ∈ successors n, m ∈ nodes

namespace Graph

variable {α : Type} [DecidableEq α]

/-- The nodes that are not on a path. -/
def offPath (g : Graph α) (path : List α) : List α := g.nodes.filter fun n ↦ !path.contains n

/-- A path that takes in a node leaves fewer nodes outside. -/
theorem length_offPath_lt {g : Graph α} {path : List α} {n : α} (hn : n ∈ g.nodes)
    (hp : n ∉ path) : (g.offPath (path ++ [n])).length < (g.offPath path).length := by
  have hsub : g.offPath (path ++ [n]) = (g.offPath path).filter fun m ↦ m ≠ n := by
    simp only [offPath, List.filter_filter]
    apply List.filter_congr
    intro m _
    by_cases hm : m = n <;> simp [hm]
  rw [hsub]
  refine Nat.lt_of_le_of_ne (List.length_filter_le _ _) fun heq ↦ ?_
  have hall := List.length_filter_eq_length_iff.mp heq
  have hmem : n ∈ g.offPath path := by simp [offPath, hn, hp]
  simpa using hall n hmem

/-- Deals with the nodes of `work` and with all they lead to. `path` leads from a root to the work
at hand and `order` lists the nodes already dealt with; the nodes of a cycle are the error. -/
def visit (g : Graph α) (path order : List α) (work : List α) (h : ∀ n ∈ work, n ∈ g.nodes) :
    Except (List α) (List α) :=
  match work with
  | [] => .ok order
  | n :: rest =>
    have hrest : ∀ m ∈ rest, m ∈ g.nodes := fun m hm ↦ h m (List.mem_cons_of_mem n hm)
    if n ∈ order then visit g path order rest hrest
    else if hp : n ∈ path then .error (path.drop (path.idxOf n) ++ [n])
    else
      have := length_offPath_lt (h n List.mem_cons_self) hp
      (visit g (path ++ [n]) order (g.successors n) (g.closed n (h n List.mem_cons_self))).bind
        fun order ↦ visit g path (order ++ [n]) rest hrest
termination_by ((g.offPath path).length, work.length)

/-- The nodes that the roots lead to, themselves included, every node after its successors; or a
cycle, its first node repeated at the end. -/
def topologicalOrder (g : Graph α) (roots : List α) (h : ∀ n ∈ roots, n ∈ g.nodes) :
    Except (List α) (List α) :=
  g.visit [] [] roots h

/-- The graph of a table of edges that has the given nodes besides the ends of its edges. -/
def ofTable (nodes : List α) (table : List (α × List α)) : Graph α where
  nodes := nodes ++ table.flatMap Prod.snd
  successors n := (table.lookup n).getD []
  closed n hn m hm := by
    refine List.mem_append_right _ ?_
    clear hn
    induction table with
    | nil => simp at hm
    | cons e rest ih =>
      rw [List.lookup_cons] at hm
      rw [List.flatMap_cons, List.mem_append]
      split at hm
      · exact .inl hm
      · exact .inr (ih hm)

/-- The given nodes are nodes of the graph of a table. -/
theorem mem_nodes_ofTable {nodes : List α} {table : List (α × List α)} {n : α} (h : n ∈ nodes) :
    n ∈ (ofTable nodes table).nodes := List.mem_append_left _ h

end Graph

end DataQuality
