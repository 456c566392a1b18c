import Clausal.Graph.Explored
import Clausal.Proofs.Graph.Exploration

/-!
# Lookups that may fail

The operations on graphs in a form where looking up a vertex that is not there makes the whole
operation fail. Main statements: if every destination is a vertex, none of them fails and they do
what the operations do that list nothing for such a vertex (`explore?_eq_some`, `reverse?_eq_some`,
`depthFirst?_eq_some`, `components?_eq_some`), and adding an edge never fails (`addEdge?_eq_some`).
-/

namespace Clausal

namespace Graph

variable {α : Type} [DecidableEq α] {g : Graph α}

/-! ### Destinations -/

/-- The destinations of the edges that leave a vertex, if it is one of the graph. -/
def neighbors? (g : Graph α) (v : α) : Option (List α) := g.adjacency.find? v

/-- Every vertex can be looked up. -/
lemma neighbors?_eq_some {v : α} (hv : v ∈ g.vertices) : g.neighbors? v = some (g.neighbors v) := by
  rw [neighbors?, find?_eq, if_pos hv]

/-- Only a vertex can be looked up. -/
lemma mem_vertices_of_neighbors? {v : α} {ds : List α} (h : g.neighbors? v = some ds) :
    v ∈ g.vertices :=
  (OrderedMap.isSome_find?_iff g.adjacency v).mp (Option.isSome_of_eq_some h)

/-- Adds `b` to the destinations of `a`, if `a` is a vertex. -/
def addArc? (g : Graph α) (a b : α) : Option (Graph α) :=
  (g.neighbors? a).map fun ds => { g with adjacency := g.adjacency.insert a (ds ++ [b]) }

/-- An arc from a vertex can be added. -/
lemma addArc?_eq_some {a : α} (ha : a ∈ g.vertices) (b : α) :
    g.addArc? a b = some (g.addArc a b) := by
  have hadjacency : g.adjacency.insert a (g.neighbors a ++ [b]) =
      g.adjacency.alter a (·.getD [] ++ [b]) := by
    apply OrderedMap.ext_find?
    · rw [OrderedMap.keys_insert, OrderedMap.keys_alter]
    · intro k
      rw [OrderedMap.find?_insert, OrderedMap.find?_alter]
      rfl
  rw [addArc?, neighbors?_eq_some ha, Option.map_some, hadjacency]
  rfl

/-- Adds an edge, together with its ends if they are missing, and lists it at its ends. -/
def addEdge? (g : Graph α) (a b : α) : Option (Graph α) := do
  let g' ← ((g.addVertex a).addVertex b).addArc? a b
  if g.directed then some g' else g'.addArc? b a

/-- Both ends of an edge are there when it is listed. -/
lemma addEdge?_eq_some (g : Graph α) (a b : α) : g.addEdge? a b = some (g.addEdge a b) := by
  have ha : a ∈ ((g.addVertex a).addVertex b).vertices := by simp
  have hb : b ∈ (((g.addVertex a).addVertex b).addArc a b).vertices := by
    simp [vertices_addArc ha]
  rw [addEdge?, addEdge, addArc?_eq_some ha, Option.bind_eq_bind, Option.bind_some,
    addArc?_eq_some hb]
  split <;> rfl

/-- The graph with every edge turned around, where each source is put into the list of a vertex that
must be there. -/
def reverse? (g : Graph α) : Option (Graph α) :=
  let bare := g.vertices.foldl addVertex (empty g.directed)
  g.arcs.foldlM (fun r (a, b) => r.addArc? b a) bare

/-- Arcs that are added the other way round find the vertices in whose lists they are put. -/
lemma foldlM_addArc?_eq_some {l : List (α × α)} (h : ∀ e ∈ l, e.2 ∈ g.vertices) :
    l.foldlM (fun r (a, b) => r.addArc? b a) g =
      some (l.foldl (fun r (a, b) => r.addArc b a) g) := by
  induction l generalizing g with
  | nil => rfl
  | cons e rest ih =>
    obtain ⟨a, b⟩ := e
    obtain ⟨hb, hrest⟩ := List.forall_mem_cons.mp h
    rw [List.foldlM_cons, List.foldl_cons]
    simp only [addArc?_eq_some hb, Option.bind_eq_bind, Option.bind_some]
    apply ih
    rwa [vertices_addArc hb]

/-- A graph whose destinations are vertices can be turned around. -/
lemma reverse?_eq_some (hg : g.Closed) : g.reverse? = some g.reverse := by
  apply foldlM_addArc?_eq_some
  intro e he
  rw [vertices_bare]
  exact hg e.1 e.2 (mem_arcs_iff.mp he)

/-! ### Traversals -/

/-- Works off a stack of frames, where the destinations of each vertex that is met are looked up. -/
def walk? (g : Graph α) (t : Traversal α) : List (Frame α) → Option (Traversal α)
  | [] => some t
  | (v, []) :: work => g.walk? (t.finish v) work
  | (v, d :: dests) :: work =>
    if _hd : t.visited d then g.walk? t ((v, dests) :: work)
    else
      match _hn : g.neighbors? d with
      | none => none
      | some next => g.walk? (t.label d) ((d, next) :: (v, dests) :: work)
termination_by work => ((g.unvisited t).length, 2 * remaining work + work.length)
decreasing_by
  · apply Prod.Lex.right
    simp [remaining]
  · apply Prod.Lex.right
    simp only [remaining, List.length_cons]
    omega
  · apply Prod.Lex.left
    exact length_unvisited_label_lt (mem_vertices_of_neighbors? _hn) (by simpa using _hd)

/-- What is put on the stack are destinations of a vertex, so nothing else is ever looked up. -/
lemma walk?_eq_some (hg : g.Closed) {t : Traversal α} {work : List (Frame α)}
    (h : ∀ f ∈ work, ∀ d ∈ f.2, d ∈ g.vertices) : g.walk? t work = some (g.walk t work) := by
  fun_induction Graph.walk g t work with
  | case1 t => rw [walk?]
  | case2 t v work ih =>
    rw [walk?]
    exact ih (List.forall_mem_cons.mp h).2
  | case3 t v d dests work hd ih =>
    obtain ⟨htop, hrest⟩ := List.forall_mem_cons.mp h
    rw [walk?, dif_pos hd]
    exact ih (List.forall_mem_cons.mpr ⟨(List.forall_mem_cons.mp htop).2, hrest⟩)
  | case4 t v d dests work hd ih =>
    obtain ⟨htop, hrest⟩ := List.forall_mem_cons.mp h
    obtain ⟨hv, hdests⟩ := List.forall_mem_cons.mp htop
    rw [walk?, dif_neg hd]
    split
    · next hn =>
      rw [neighbors?_eq_some hv] at hn
      cases hn
    · next next hn =>
      rw [neighbors?_eq_some hv] at hn
      cases hn
      exact ih (List.forall_mem_cons.mpr ⟨hg d, List.forall_mem_cons.mpr ⟨hdests, hrest⟩⟩)

/-- Labels a vertex and explores from it, if it is one of the graph. -/
def explore? (g : Graph α) (t : Traversal α) (v : α) : Option (Traversal α) := do
  let ds ← g.neighbors? v
  g.walk? (t.label v) [(v, ds)]

/-- In a graph whose destinations are vertices, exploring from a vertex meets vertices only. -/
lemma explore?_eq_some (hg : g.Closed) (t : Traversal α) {v : α} (hv : v ∈ g.vertices) :
    g.explore? t v = some (g.explore t v) := by
  rw [explore?, neighbors?_eq_some hv]
  exact walk?_eq_some hg (by simpa using hg v)

/-- Explores under a new number from each listed vertex that has no label when its turn comes. -/
def exploreAll? (g : Graph α) (t : Traversal α) : List α → Option (Traversal α)
  | [] => some t
  | v :: rest =>
    if t.visited v then g.exploreAll? t rest
    else do
      let t' ← g.explore? t.next v
      g.exploreAll? t' rest

/-- In a graph whose destinations are vertices, exploring from listed vertices does not fail. -/
lemma exploreAll?_eq_some (hg : g.Closed) {l : List α} (t : Traversal α)
    (hl : ∀ v ∈ l, v ∈ g.vertices) : g.exploreAll? t l = some (g.exploreAll t l) := by
  induction l generalizing t with
  | nil => rfl
  | cons v rest ih =>
    obtain ⟨hv, hrest⟩ := List.forall_mem_cons.mp hl
    rw [exploreAll?, exploreAll]
    split
    · exact ih t hrest
    · rw [explore?_eq_some hg t.next hv]
      exact ih _ hrest

end Graph

namespace Explored

variable {α : Type} [DecidableEq α] {e : Explored α}

/-- Searches the whole graph anew and lists its vertices in the order in which they are finished. -/
def depthFirst? (e : Explored α) : Option (Explored α × List α) := do
  let t ← e.graph.exploreAll? e.reset.traversal e.graph.vertices
  some ({ e with traversal := t }, t.finished)

/-- Numbers the strongly connected components anew, and gives the number of each vertex. -/
def components? (e : Explored α) : Option (Explored α × OrderedMap α Nat) := do
  let r ← e.graph.reverse?
  let (_, order) ← (fresh r).depthFirst?
  let t ← e.graph.exploreAll? e.reset.traversal order.reverse
  some ({ e with traversal := t }, t.labels)

/-- A graph whose destinations are vertices can be searched as a whole. -/
lemma depthFirst?_eq_some (h : e.graph.Closed) : e.depthFirst? = some e.depthFirst := by
  rw [depthFirst?, Graph.exploreAll?_eq_some h _ fun v hv => hv]
  rfl

/-- The vertices that a search of the reversed graph lists are those of the graph. -/
lemma components?_eq_some (h : e.graph.Closed) : e.components? = some e.components := by
  have horder : ∀ v ∈ (depthFirst (fresh e.graph.reverse)).2.reverse, v ∈ e.graph.vertices := by
    intro v hv
    rw [List.mem_reverse] at hv
    rw [← Graph.vertices_reverse h]
    exact ((Graph.settled_depthFirst h.reverse).2 v).mp hv
  have hreverse : depthFirst? (fresh e.graph.reverse) = some (depthFirst (fresh e.graph.reverse)) :=
    depthFirst?_eq_some h.reverse
  simp only [components?, Graph.reverse?_eq_some h, Option.bind_eq_bind, Option.bind_some, hreverse,
    Graph.exploreAll?_eq_some h _ horder]
  rfl

end Explored

end Clausal
