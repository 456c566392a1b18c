import Clausal.Proofs.Graph.Edges
import Clausal.Proofs.Graph.Lookup
import Mathlib.Algebra.Group.Even
import Mathlib.Data.List.Induction
import Mathlib.Tactic.Lemma

/-!
# Histories of graphs

Callers make graphs, add vertices and edges, explore them in between and turn them around into new
graphs, which they go on with in the same way. A recorded graph remembers what was mentioned to it as
a vertex and which edges it was given. Main statement: whatever the calls, every graph is as its
record says, and looking up, traversing and turning around never fails (`faithful_of_mem_run`).
-/

namespace Clausal

/-- A graph that is explored, with the vertices in the order in which they were mentioned, each as
often as it was, and the edges that were added. What was turned around to get the graph counts too. -/
structure Recorded (α : Type) extends Explored α where
  mentioned : List α
  edges : List (α × α)

namespace Recorded

variable {α : Type} [DecidableEq α]

/-! ### Calls and sessions -/

/-- A new graph without vertices. -/
def new (directed : Bool) : Recorded α :=
  { toExplored := .fresh (.empty directed), mentioned := [], edges := [] }

/-- Adds a vertex and leaves the last traversal as it is. -/
def addVertex (r : Recorded α) (v : α) : Recorded α :=
  { r with graph := r.graph.addVertex v, mentioned := r.mentioned ++ [v] }

/-- Adds an edge and leaves the last traversal as it is. -/
def addEdge (r : Recorded α) (a b : α) : Recorded α :=
  { r with
    graph := r.graph.addEdge a b
    mentioned := r.mentioned ++ [a, b]
    edges := r.edges ++ [(a, b)] }

/-- The graph with all edges turned around, which was never explored. -/
def reverse (r : Recorded α) : Recorded α :=
  { toExplored := .fresh r.graph.reverse
    mentioned := r.mentioned
    edges := r.edges.map Prod.swap }

/-- A call on a graph that adds to it or traverses it. -/
inductive Call (α : Type) where
  | addVertex (v : α)
  | addEdge (a b : α)
  | explore (v : α)
  | depthFirst
  | components

/-- What a call makes of a graph. -/
def call (r : Recorded α) : Call α → Recorded α
  | .addVertex v => r.addVertex v
  | .addEdge a b => r.addEdge a b
  | .explore v => { r with toExplored := (r.toExplored.explore v).1 }
  | .depthFirst => { r with toExplored := r.toExplored.depthFirst.1 }
  | .components => { r with toExplored := r.toExplored.components.1 }

/-- A step of a session: a graph is made, or the graph at a place is called, or it is turned around
into one more graph. -/
inductive Step (α : Type) where
  | create (directed : Bool)
  | call (place : Nat) (c : Call α)
  | reverse (place : Nat)

/-- The graphs after a step. -/
def perform (rs : List (Recorded α)) : Step α → List (Recorded α)
  | .create directed => rs ++ [new directed]
  | .call i c =>
    match rs[i]? with
    | some r => rs.set i (r.call c)
    | none => rs
  | .reverse i =>
    match rs[i]? with
    | some r => rs ++ [r.reverse]
    | none => rs

/-- The graphs after a session. -/
def run (steps : List (Step α)) : List (Recorded α) := steps.foldl perform []

/-! ### The record of a graph -/

/-- A mention counts if there was none before. -/
lemma eraseDups_concat (l : List α) (v : α) :
    (l ++ [v]).eraseDups = if v ∈ l.eraseDups then l.eraseDups else l.eraseDups ++ [v] := by
  rw [List.eraseDups_append]
  by_cases hv : v ∈ l
  · simp [List.removeAll, hv]
  · simp [List.removeAll, hv, List.eraseDups_cons]

/-- A vertex that is mentioned comes to the end of the vertices at its first mention only. -/
lemma vertices_addVertex_of_eq {g : Graph α} {l : List α} (h : g.vertices = l.eraseDups) (v : α) :
    (g.addVertex v).vertices = (l ++ [v]).eraseDups := by
  rw [Graph.vertices_addVertex, h, eraseDups_concat]

/-- The graph has the vertices and the edges of its record, and its destinations are vertices. -/
structure Sound (r : Recorded α) : Prop where
  closed : r.graph.Closed
  vertices_eq : r.graph.vertices = r.mentioned.eraseDups
  lists : r.graph.Lists r.edges

variable {r : Recorded α}

/-- The record of a new graph says that it has no vertices and no edges. -/
lemma sound_new (directed : Bool) : (new directed : Recorded α).Sound where
  closed := (Graph.Built.empty directed).closed
  vertices_eq := rfl
  lists := Graph.lists_empty directed

/-- A vertex that is added keeps the graph and its record in step. -/
lemma Sound.addVertex (h : r.Sound) (v : α) : (r.addVertex v).Sound where
  closed := h.closed.addVertex v
  vertices_eq := vertices_addVertex_of_eq h.vertices_eq v
  lists := h.lists.addVertex v

/-- An edge that is added keeps the graph and its record in step. -/
lemma Sound.addEdge (h : r.Sound) (a b : α) : (r.addEdge a b).Sound where
  closed := h.closed.addEdge a b
  vertices_eq := by
    have hends := vertices_addVertex_of_eq (vertices_addVertex_of_eq h.vertices_eq a) b
    rw [List.append_assoc] at hends
    exact (Graph.vertices_addEdge _ a b).trans hends
  lists := h.lists.addEdge a b

/-- The graph turned around has the record turned around. -/
lemma Sound.reverse (h : r.Sound) : r.reverse.Sound where
  closed := h.closed.reverse
  vertices_eq := (Graph.vertices_reverse h.closed).trans h.vertices_eq
  lists := h.lists.reverse

/-- A traversal leaves the graph and its record as they are. -/
lemma Sound.call (h : r.Sound) (c : Call α) : (r.call c).Sound := by
  cases c with
  | addVertex v => exact h.addVertex v
  | addEdge a b => exact h.addEdge a b
  | explore v => exact ⟨h.closed, h.vertices_eq, h.lists⟩
  | depthFirst => exact ⟨h.closed, h.vertices_eq, h.lists⟩
  | components => exact ⟨h.closed, h.vertices_eq, h.lists⟩

/-- Each step keeps the records of all graphs. -/
lemma sound_of_mem_perform {rs : List (Recorded α)} (h : ∀ r ∈ rs, r.Sound) (s : Step α) :
    ∀ r ∈ perform rs s, r.Sound := by
  cases s with
  | create directed =>
    exact List.forall_mem_append.mpr ⟨h, List.forall_mem_singleton.mpr (sound_new directed)⟩
  | call i c =>
    rw [perform]
    split
    · next r hr =>
      intro r' hr'
      rcases List.mem_or_eq_of_mem_set hr' with hr' | rfl
      · exact h r' hr'
      · exact (h r (List.mem_of_getElem? hr)).call c
    · exact h
  | reverse i =>
    rw [perform]
    split
    · next r hr =>
      have hreverse := (h r (List.mem_of_getElem? hr)).reverse
      exact List.forall_mem_append.mpr ⟨h, List.forall_mem_singleton.mpr hreverse⟩
    · exact h

/-- After every session all graphs are as their records say. -/
lemma sound_of_mem_run (steps : List (Step α)) : ∀ r ∈ run steps, r.Sound := by
  induction steps using List.reverseRecOn with
  | nil =>
    intro r hr
    cases hr
  | append_singleton steps s ih =>
    rw [run, List.foldl_concat]
    exact sound_of_mem_perform ih s

/-! ### What the record tells -/

/-- A graph is as its record says, and nothing that is asked of it fails. -/
structure Faithful (r : Recorded α) : Prop where
  /-- Every destination is a vertex. -/
  mem_vertices : ∀ u, ∀ w ∈ r.graph.neighbors u, w ∈ r.graph.vertices
  /-- The lookups that may fail do not, whatever the earlier traversals left behind. -/
  neighbors?_eq : ∀ v ∈ r.graph.vertices, r.graph.neighbors? v = some (r.graph.neighbors v)
  explore?_eq : ∀ t, ∀ v ∈ r.graph.vertices, r.graph.explore? t v = some (r.graph.explore t v)
  addEdge?_eq : ∀ a b, r.graph.addEdge? a b = some (r.graph.addEdge a b)
  depthFirst?_eq : r.toExplored.depthFirst? = some r.toExplored.depthFirst
  components?_eq : r.toExplored.components? = some r.toExplored.components
  reverse?_eq : r.graph.reverse? = some r.graph.reverse
  /-- Each vertex is listed once, in the order of the first mentions. -/
  nodup : r.graph.vertices.Nodup
  vertices_eq : r.graph.vertices = r.mentioned.eraseDups
  /-- The edges are those that were added. -/
  numEdges_eq : r.graph.numEdges = r.edges.length
  count_eq : ∀ u w, (r.graph.neighbors u).count w =
    r.edges.count (u, w) + if r.graph.directed then 0 else r.edges.count (w, u)
  /-- In an undirected graph an edge is listed at both ends, so a loop is listed twice. -/
  count_comm : r.graph.directed = false →
    ∀ u w, (r.graph.neighbors u).count w = (r.graph.neighbors w).count u
  even_count : r.graph.directed = false → ∀ v, Even ((r.graph.neighbors v).count v)

/-- A graph that is as its record says can be looked up, traversed and turned around without a
failure. -/
lemma Sound.faithful (h : r.Sound) : r.Faithful where
  mem_vertices := h.closed
  neighbors?_eq _ hv := Graph.neighbors?_eq_some hv
  explore?_eq t _ hv := Graph.explore?_eq_some h.closed t hv
  addEdge?_eq := r.graph.addEdge?_eq_some
  depthFirst?_eq := Explored.depthFirst?_eq_some h.closed
  components?_eq := Explored.components?_eq_some h.closed
  reverse?_eq := Graph.reverse?_eq_some h.closed
  nodup := r.graph.nodup_vertices
  vertices_eq := h.vertices_eq
  numEdges_eq := h.lists.numEdges_eq
  count_eq := h.lists.count_neighbors
  count_comm hd := h.lists.count_comm hd
  even_count hd v := by
    have hcount := h.lists.count_neighbors v v
    rw [hd] at hcount
    exact ⟨_, hcount⟩

/-- Whatever graphs are made, added to, traversed and turned around, in whatever order, each of them
is as its record says, and it can be looked up, traversed and turned around without a failure. -/
theorem faithful_of_mem_run (steps : List (Step α)) : ∀ r ∈ run steps, r.Faithful := by
  intro r hr
  exact (sound_of_mem_run steps r hr).faithful

/-- An undirected graph with a loop is searched and turned around, and then the new one is given one
more edge and has its components numbered. -/
def turned : List (Step Nat) :=
  [.create false, .call 0 (.addEdge 2 1), .call 0 (.addEdge 2 2), .call 0 .depthFirst,
    .reverse 0, .call 1 (.addEdge 3 2), .call 1 .components]

/-- In the example the edges of the first graph count for the second one, with the loop listed twice.
-/
theorem faithful_of_mem_run_turned :
    ∃ r ∈ run turned, r.edges = [(1, 2), (2, 2), (3, 2)] ∧
      r.graph.vertices = [2, 1, 3] ∧ r.graph.numEdges = 3 ∧
      (r.graph.neighbors 2).count 1 = 1 ∧ (r.graph.neighbors 2).count 2 = 2 ∧
      r.toExplored.components? = some r.toExplored.components := by
  let r := (run turned).get ⟨1, by decide⟩
  have hr : r ∈ run turned := List.get_mem _ _
  have h := faithful_of_mem_run turned r hr
  refine ⟨r, hr, by decide, h.vertices_eq.trans (by decide), h.numEdges_eq.trans (by decide),
    (h.count_eq 2 1).trans (by decide), (h.count_eq 2 2).trans (by decide), h.components?_eq⟩

end Recorded

end Clausal
