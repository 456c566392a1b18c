import Clausal.Proofs.Graph.Edges
import Mathlib.Data.List.Nodup
import Mathlib.Data.List.Sort

/-!
# Transposition

Turning all edges around lists at each vertex the sources of its edges, in the order in which the
vertices were first mentioned (`pairwise_neighbors_reverse`). Such lists are told apart by how often
they have each vertex (`eq_of_precedes`). Main statement: turned around twice, a graph has its lists
sorted, and from then on turning around just goes to and fro (`reverse_transposes`).
-/

namespace Clausal

namespace Graph

variable {α : Type} [DecidableEq α] {g : Graph α}

/-- A graph is determined by its kind, its vertices in their order and their destinations. -/
lemma ext_neighbors {g' : Graph α} (hd : g.directed = g'.directed)
    (hv : g.vertices = g'.vertices) (hn : ∀ v, g.neighbors v = g'.neighbors v) : g = g' := by
  have hadjacency : g.adjacency = g'.adjacency := by
    apply OrderedMap.ext_find? hv
    intro v
    rw [find?_eq, find?_eq, hv, hn]
  cases g
  cases g'
  cases hd
  cases hadjacency
  rfl

/-! ### The order of the vertices -/

/-- Whether a vertex was not first mentioned after another one. -/
def precedes (g : Graph α) (a b : α) : Bool := decide (g.vertices.idxOf a ≤ g.vertices.idxOf b)

/-- One vertex precedes another one if its place among the vertices is no later. -/
lemma precedes_iff {a b : α} : g.precedes a b = true ↔ g.vertices.idxOf a ≤ g.vertices.idxOf b :=
  decide_eq_true_iff

/-- The vertices are in the order of their first mention. -/
lemma pairwise_vertices (g : Graph α) : g.vertices.Pairwise fun a b => g.precedes a b = true := by
  rw [List.pairwise_iff_getElem]
  intro i j hi hj hij
  rw [precedes_iff, g.nodup_vertices.idxOf_getElem, g.nodup_vertices.idxOf_getElem]
  exact Nat.le_of_lt hij

/-- The arcs are listed in the order of their sources. -/
lemma pairwise_arcs (g : Graph α) : g.arcs.Pairwise fun e f => g.precedes e.1 f.1 = true := by
  rw [arcs, List.pairwise_flatMap]
  constructor
  · rintro ⟨v, ds⟩ -
    rw [List.pairwise_map]
    apply List.pairwise_of_forall
    intro d d'
    exact precedes_iff.mpr (Nat.le_refl _)
  · refine (List.pairwise_map.mp g.pairwise_vertices).imp ?_
    rintro ⟨v, ds⟩ ⟨v', ds'⟩ hle e he f hf
    obtain ⟨d, -, rfl⟩ := List.mem_map.mp he
    obtain ⟨d', -, rfl⟩ := List.mem_map.mp hf
    exact hle

/-- Turning edges around lists the sources of the edges in the order of the vertices. -/
lemma pairwise_neighbors_reverse (g : Graph α) (v : α) :
    (g.reverse.neighbors v).Pairwise fun a b => g.precedes a b = true := by
  rw [neighbors_reverse, List.pairwise_map]
  exact g.pairwise_arcs.filter _

/-- Lists of vertices in their order are equal if they have each vertex equally often. -/
lemma eq_of_precedes {l l' : List α} (hv : ∀ a ∈ l, a ∈ g.vertices)
    (hl : l.Pairwise fun a b => g.precedes a b = true)
    (hl' : l'.Pairwise fun a b => g.precedes a b = true) (h : l.Perm l') : l = l' := by
  refine List.Perm.eq_of_pairwise ?_ hl hl' h
  intro a b ha _ hab hba
  exact (List.idxOf_inj (hv a ha)).mp (Nat.le_antisymm (precedes_iff.mp hab) (precedes_iff.mp hba))

/-- Sorting a list of vertices puts it into their order. -/
lemma pairwise_mergeSort_precedes (g : Graph α) (l : List α) :
    (l.mergeSort g.precedes).Pairwise fun a b => g.precedes a b = true := by
  apply List.pairwise_mergeSort
  · intro a b c hab hbc
    exact precedes_iff.mpr (Nat.le_trans (precedes_iff.mp hab) (precedes_iff.mp hbc))
  · intro a b
    rw [Bool.or_eq_true, precedes_iff, precedes_iff]
    exact Nat.le_total _ _

/-! ### Turning around again and again -/

/-- Turning edges around keeps the order of the vertices. -/
lemma precedes_reverse (h : g.Closed) : g.reverse.precedes = g.precedes := by
  unfold precedes
  rw [vertices_reverse h]

/-- Turning edges around twice sorts the destinations of each vertex. -/
lemma neighbors_reverse_reverse (h : g.Closed) (v : α) :
    g.reverse.reverse.neighbors v = (g.neighbors v).mergeSort g.precedes := by
  -- both lists are in the order of the vertices, so it is enough to count
  have hperm : (g.reverse.reverse.neighbors v).Perm (g.neighbors v) := by
    rw [List.perm_iff_count]
    intro u
    rw [count_neighbors_reverse, count_neighbors_reverse]
  have hmem : ∀ a ∈ g.reverse.reverse.neighbors v, a ∈ g.vertices := by
    intro a ha
    exact h v a (hperm.subset ha)
  have hsorted := g.reverse.pairwise_neighbors_reverse v
  rw [precedes_reverse h] at hsorted
  exact eq_of_precedes hmem hsorted (g.pairwise_mergeSort_precedes _)
    (hperm.trans (List.mergeSort_perm _ _).symm)

/-- Lists that are sorted stay as they are when the edges are turned around twice. -/
lemma reverse_reverse_reverse (h : g.Closed) : g.reverse.reverse.reverse = g.reverse := by
  have hvertices : g.reverse.reverse.reverse.vertices = g.reverse.vertices :=
    (vertices_reverse h.reverse.reverse).trans (vertices_reverse h.reverse)
  apply ext_neighbors (by simp) hvertices
  intro v
  rw [neighbors_reverse_reverse h.reverse, precedes_reverse h]
  exact List.mergeSort_of_pairwise (g.pairwise_neighbors_reverse v)

/-- Turning all edges around keeps the kind of the graph, its vertices in their order and the number
of edges, and lists a source at a destination as often as the destination was listed at the source.
Done twice, it sorts the destinations of each vertex by the order in which the vertices were first
mentioned, and equal ones stay in their order; done three times, it gives the very graph that it gives
when done once. In an undirected graph it only changes the order of the lists. -/
theorem reverse_transposes (h : g.Built) :
    (g.reverse.directed = g.directed ∧ g.reverse.vertices = g.vertices) ∧
    (∀ u v, (g.reverse.neighbors v).count u = (g.neighbors u).count v) ∧
    g.reverse.numEdges = g.numEdges ∧
    (∀ v, g.reverse.reverse.neighbors v = (g.neighbors v).mergeSort
      fun a b => decide (g.vertices.idxOf a ≤ g.vertices.idxOf b)) ∧
    g.reverse.reverse.reverse = g.reverse ∧
    (g.directed = false → ∀ v, (g.reverse.neighbors v).Perm (g.neighbors v)) := by
  refine ⟨⟨directed_reverse g, vertices_reverse h.closed⟩, count_neighbors_reverse g,
    numEdges_reverse g, neighbors_reverse_reverse h.closed, reverse_reverse_reverse h.closed, ?_⟩
  intro hd v
  obtain ⟨edges, hedges⟩ := h.exists_lists
  rw [List.perm_iff_count]
  intro u
  rw [count_neighbors_reverse, hedges.count_comm hd]

/-- Edges from one vertex to others and to itself, in an order that is not the one of the vertices. -/
def tangled : Graph Nat :=
  ((((Graph.empty false).addVertex 2).addEdge 1 3).addEdge 1 2).addEdge 1 1

/-- In the example the list of the first vertex of the edges gets sorted, and then it stays so. -/
theorem reverse_transposes_tangled :
    tangled.Built ∧ tangled.directed = false ∧
    tangled.neighbors 1 = [3, 2, 1, 1] ∧
    (tangled.reverse.neighbors 1).Perm [3, 2, 1, 1] ∧
    [3, 2, 1, 1].mergeSort (fun a b => decide ([2, 1, 3].idxOf a ≤ [2, 1, 3].idxOf b)) =
      [2, 1, 1, 3] ∧
    tangled.reverse.reverse.reverse = tangled.reverse := by
  have hbuilt : tangled.Built := .addEdge _ _ (.addEdge _ _ (.addEdge _ _ (.addVertex _ (.empty _))))
  have hdirected : tangled.directed = false := rfl
  obtain ⟨-, -, -, hsorted, hthrice, hperm⟩ := reverse_transposes hbuilt
  refine ⟨hbuilt, hdirected, by decide, hperm hdirected 1, ?_, hthrice⟩
  exact (hsorted 1).symm.trans (by decide)

end Graph

end Clausal
