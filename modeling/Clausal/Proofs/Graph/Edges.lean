import Clausal.Proofs.Graph.Adjacency
import Mathlib.Data.List.Count
import Mathlib.Data.List.Perm.Basic
import Mathlib.Data.Prod.Basic

/-!
# Edges and arcs

Every edge is listed as one arc, or as two of them if the graph is undirected. The relation `Lists`
says that the arcs of a graph are those of some edges, each as often as the edge was added. Main
statements: adding vertices and edges and turning all edges around keep it (`Lists.addEdge`,
`Lists.reverse`), and it tells how often a destination is listed and how many edges there are
(`Lists.count_neighbors`, `Lists.numEdges_eq`).
-/

namespace Clausal.Graph

variable {α : Type} [DecidableEq α] {g : Graph α}

/-! ### Arcs -/

/-- A pair is an arc as often as its second vertex is listed at the first one. -/
lemma count_arcs (g : Graph α) (u w : α) : g.arcs.count (u, w) = (g.neighbors u).count w := by
  obtain ⟨directed, entries, hn⟩ := g
  simp only [arcs, neighbors, OrderedMap.find?]
  induction entries with
  | nil => rfl
  | cons e rest ih =>
    obtain ⟨v, ds⟩ := e
    obtain ⟨hv, hrest⟩ := List.nodup_cons.mp hn
    rw [List.flatMap_cons, List.count_append, ih hrest, OrderedMap.lookup]
    split
    · next h =>
      subst h
      have hnone : OrderedMap.lookup v rest = none := by
        rw [← Option.not_isSome_iff_eq_none]
        exact fun hsome => hv ((OrderedMap.isSome_find?_iff ⟨rest, hrest⟩ v).mp hsome)
      rw [hnone, List.count_map_of_injective ds (Prod.mk v) fun _ _ e => congrArg Prod.snd e]
      rfl
    · next h =>
      have hzero : (ds.map (Prod.mk v)).count (u, w) = 0 := by
        rw [List.count_eq_zero, List.mem_map]
        rintro ⟨d, -, hd⟩
        exact h (congrArg Prod.fst hd)
      rw [hzero, Nat.zero_add]

/-- A new vertex adds no arc. -/
lemma perm_arcs_addVertex (g : Graph α) (v : α) : (g.addVertex v).arcs.Perm g.arcs := by
  rw [List.perm_iff_count]
  rintro ⟨u, w⟩
  rw [count_arcs, count_arcs, neighbors_addVertex]

/-- Adding an arc makes it one of the arcs once more. -/
lemma perm_arcs_addArc (g : Graph α) (a b : α) : (g.addArc a b).arcs.Perm ((a, b) :: g.arcs) := by
  rw [List.perm_iff_count]
  rintro ⟨u, w⟩
  rw [count_arcs, List.count_cons, count_arcs, neighbors_addArc]
  by_cases hu : u = a
  · simp [hu, List.count_singleton]
  · have hne : ((a, b) == (u, w)) = false := by
      simp [Ne.symm hu]
    simp [hu, hne]

/-- The arcs as which an edge is listed: at its source, and in an undirected graph at its destination
too. -/
def listings (directed : Bool) (e : α × α) : List (α × α) := if directed then [e] else [e, e.swap]

omit [DecidableEq α] in
/-- An edge that is turned around has its arcs turned around. -/
lemma listings_swap (directed : Bool) (e : α × α) :
    listings directed e.swap = (listings directed e).map Prod.swap := by
  cases directed <;> rfl

/-- Adding an edge adds the arcs as which it is listed. -/
lemma perm_arcs_addEdge (g : Graph α) (a b : α) :
    (g.addEdge a b).arcs.Perm (g.arcs ++ listings g.directed (a, b)) := by
  have hbase : (((g.addVertex a).addVertex b).addArc a b).arcs.Perm ((a, b) :: g.arcs) :=
    (perm_arcs_addArc _ a b).trans
      (.cons _ ((perm_arcs_addVertex _ b).trans (perm_arcs_addVertex g a)))
  unfold addEdge
  split
  · next hd =>
    have hd : g.directed = true := by simpa [addArc, addVertex] using hd
    rw [listings, if_pos hd]
    exact hbase.trans (List.perm_append_singleton _ _).symm
  · next hd =>
    have hd : ¬ g.directed = true := by simpa [addArc, addVertex] using hd
    rw [listings, if_neg hd]
    calc List.Perm ((((g.addVertex a).addVertex b).addArc a b).addArc b a).arcs
          ((b, a) :: (a, b) :: g.arcs) := (perm_arcs_addArc _ b a).trans (.cons _ hbase)
      List.Perm _ ([(a, b), (b, a)] ++ g.arcs) := .swap _ _ _
      List.Perm _ (g.arcs ++ [(a, b), (b, a)]) := List.perm_append_comm

/-- Among the sources of the pairs to a vertex, another vertex is found as often as the pair of
both. -/
lemma count_filter_map_fst (l : List (α × α)) (u w : α) :
    ((l.filter (·.2 = u)).map (·.1)).count w = l.count (w, u) := by
  rw [List.count, List.countP_map, List.countP_filter, List.count]
  apply List.countP_congr
  rintro ⟨a, b⟩ -
  simp

/-- Turning edges around exchanges the ends of each edge, as often as it is listed. -/
lemma count_neighbors_reverse (g : Graph α) (u w : α) :
    (g.reverse.neighbors w).count u = (g.neighbors u).count w := by
  rw [neighbors_reverse, count_filter_map_fst, count_arcs]

/-- Turning edges around turns each arc around. -/
lemma perm_arcs_reverse (g : Graph α) : g.reverse.arcs.Perm (g.arcs.map Prod.swap) := by
  rw [List.perm_iff_count]
  rintro ⟨u, w⟩
  have hswap := List.count_map_of_injective g.arcs Prod.swap Prod.swap_injective (w, u)
  rw [count_arcs, count_neighbors_reverse, ← count_arcs]
  exact hswap.symm

/-! ### Lists of edges -/

/-- The arcs of a graph are those of the edges. -/
def Lists (g : Graph α) (edges : List (α × α)) : Prop :=
  g.arcs.Perm (edges.flatMap (listings g.directed))

omit [DecidableEq α] in
/-- A graph without vertices lists no edges. -/
lemma lists_empty (directed : Bool) : (Graph.empty directed : Graph α).Lists [] := .nil

/-- A new vertex leaves the edges that a graph lists. -/
lemma Lists.addVertex {edges : List (α × α)} (h : g.Lists edges) (v : α) :
    (g.addVertex v).Lists edges :=
  (perm_arcs_addVertex g v).trans h

/-- An edge that is added is the last one that a graph lists. -/
lemma Lists.addEdge {edges : List (α × α)} (h : g.Lists edges) (a b : α) :
    (g.addEdge a b).Lists (edges ++ [(a, b)]) := by
  rw [Lists, directed_addEdge, List.flatMap_append, List.flatMap_singleton]
  exact (perm_arcs_addEdge g a b).trans (h.append_right _)

/-- Turned around, a graph lists its edges turned around. -/
lemma Lists.reverse {edges : List (α × α)} (h : g.Lists edges) :
    g.reverse.Lists (edges.map Prod.swap) := by
  rw [Lists, directed_reverse, List.flatMap_map]
  simp only [listings_swap]
  rw [← List.map_flatMap]
  exact (perm_arcs_reverse g).trans (h.map Prod.swap)

/-- Every graph that was built lists some edges. -/
lemma Built.exists_lists (h : g.Built) : ∃ edges, g.Lists edges := by
  induction h with
  | empty directed => exact ⟨[], lists_empty directed⟩
  | addVertex v _ ih =>
    obtain ⟨edges, h⟩ := ih
    exact ⟨edges, h.addVertex v⟩
  | addEdge a b _ ih =>
    obtain ⟨edges, h⟩ := ih
    exact ⟨edges ++ [(a, b)], h.addEdge a b⟩

/-- Among the arcs of some edges, a pair is found as often as it is an edge, and in an undirected
graph also as often as it is one turned around. -/
lemma count_flatMap_listings (directed : Bool) (edges : List (α × α)) (u w : α) :
    (edges.flatMap (listings directed)).count (u, w) =
      edges.count (u, w) + if directed then 0 else edges.count (w, u) := by
  induction edges with
  | nil => simp
  | cons e rest ih =>
    obtain ⟨a, b⟩ := e
    have hswap : ((b, a) == (u, w)) = ((a, b) == (w, u)) := by
      rw [Bool.eq_iff_iff]
      simp [and_comm]
    rw [List.flatMap_cons, List.count_append, ih, List.count_cons, List.count_cons]
    cases directed with
    | true =>
      simp only [listings, if_true, List.count_cons, List.count_nil]
      omega
    | false =>
      simp only [listings, Bool.false_eq_true, if_false, List.count_cons, List.count_nil,
        Prod.swap_prod_mk, hswap]
      omega

omit [DecidableEq α] in
/-- Each edge is listed as one arc, and as two of them in an undirected graph. -/
lemma length_flatMap_listings (directed : Bool) (edges : List (α × α)) :
    (edges.flatMap (listings directed)).length =
      if directed then edges.length else 2 * edges.length := by
  induction edges with
  | nil => simp
  | cons e rest ih =>
    rw [List.flatMap_cons, List.length_append, ih]
    cases directed with
    | true => simp [listings, Nat.add_comm]
    | false =>
      simp only [listings, Bool.false_eq_true, if_false, List.length_cons, List.length_nil]
      omega

/-- A destination is listed once for each edge to it, and in an undirected graph once more for each
edge from it. -/
lemma Lists.count_neighbors {edges : List (α × α)} (h : g.Lists edges) (u w : α) :
    (g.neighbors u).count w =
      edges.count (u, w) + if g.directed then 0 else edges.count (w, u) := by
  rw [← count_arcs, h.count_eq, count_flatMap_listings]

/-- In an undirected graph two vertices are listed at each other equally often. -/
lemma Lists.count_comm {edges : List (α × α)} (h : g.Lists edges) (hd : g.directed = false)
    (u w : α) : (g.neighbors u).count w = (g.neighbors w).count u := by
  rw [h.count_neighbors, h.count_neighbors, hd]
  exact Nat.add_comm _ _

omit [DecidableEq α] in
/-- The number of edges is that of the edges listed. -/
lemma Lists.numEdges_eq {edges : List (α × α)} (h : g.Lists edges) : g.numEdges = edges.length := by
  rw [numEdges, h.length_eq, length_flatMap_listings]
  split
  · rfl
  · omega

/-! ### The number of edges -/

/-- Turning edges around does not change their number. -/
lemma numEdges_reverse (g : Graph α) : g.reverse.numEdges = g.numEdges := by
  simp only [numEdges, (perm_arcs_reverse g).length_eq, List.length_map, directed_reverse]

/-- A new vertex does not change the number of edges. -/
lemma numEdges_addVertex (g : Graph α) (v : α) : (g.addVertex v).numEdges = g.numEdges := by
  simp only [numEdges, (perm_arcs_addVertex g v).length_eq]
  rfl

/-- Adding an edge makes the number of edges grow by one. -/
lemma numEdges_addEdge (g : Graph α) (a b : α) : (g.addEdge a b).numEdges = g.numEdges + 1 := by
  simp only [numEdges, (perm_arcs_addEdge g a b).length_eq, directed_addEdge, List.length_append,
    listings]
  split
  · rfl
  · simp

end Clausal.Graph
