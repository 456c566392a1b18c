import Clausal.OrderedMap
import Clausal.Text.Quoted

/-!
# Graphs

Directed and undirected graphs as adjacency lists. Vertices are listed in the order of their first
mention, and parallel edges are kept. An undirected edge is listed at both of its ends, so a loop is
listed twice at its vertex.
-/

namespace Clausal

/-- A graph with its vertices in the order of first mention and the destinations of each in the
order in which the edges were added. -/
structure Graph (α : Type) where
  directed : Bool
  adjacency : OrderedMap α (List α)

namespace Graph

variable {α : Type} [DecidableEq α]

/-- The graph without vertices. -/
def empty (directed : Bool) : Graph α := ⟨directed, OrderedMap.empty⟩

/-- The vertices in the order of first mention. -/
def vertices (g : Graph α) : List α := g.adjacency.keys

/-- Whether a vertex is one of the graph. -/
def contains (g : Graph α) (v : α) : Bool := g.adjacency.contains v

/-- The destinations of the edges that leave a vertex; none if it is no vertex of the graph. -/
def neighbors (g : Graph α) (v : α) : List α := (g.adjacency.find? v).getD []

/-- Adds a vertex, unless the graph has it. -/
def addVertex (g : Graph α) (v : α) : Graph α :=
  { g with adjacency := g.adjacency.alter v (·.getD []) }

/-- Adds `b` to the destinations of `a`. -/
def addArc (g : Graph α) (a b : α) : Graph α :=
  { g with adjacency := g.adjacency.alter a (·.getD [] ++ [b]) }

/-- Adds an edge, together with its ends if they are missing. In an undirected graph it is listed at
both ends. -/
def addEdge (g : Graph α) (a b : α) : Graph α :=
  let g' := ((g.addVertex a).addVertex b).addArc a b
  if g.directed then g' else g'.addArc b a

/-- All pairs of a vertex and a destination, in the order of the lists. -/
def arcs (g : Graph α) : List (α × α) :=
  g.adjacency.entries.flatMap fun (v, dests) => dests.map fun d => (v, d)

/-- The number of edges. -/
def numEdges (g : Graph α) : Nat :=
  if g.directed then g.arcs.length else g.arcs.length / 2

/-- The graph with every edge turned around and the same vertices in the same order. -/
def reverse (g : Graph α) : Graph α :=
  let bare := g.vertices.foldl addVertex (empty g.directed)
  g.arcs.foldl (fun r (a, b) => r.addArc b a) bare

/-- A line for each vertex with its destinations, where vertices are written by `write`. -/
def render (write : α → String) (g : Graph α) : String :=
  String.join (g.adjacency.entries.map fun (v, dests) =>
    write v ++ ": [" ++ ", ".intercalate (dests.map fun d => Text.quote (write d)) ++ "]\n")

/-- Nothing is listed for what is no vertex. -/
theorem neighbors_eq_nil {g : Graph α} {v : α} (h : v ∉ g.vertices) : g.neighbors v = [] := by
  have : g.adjacency.find? v = none := by
    rw [← Option.not_isSome_iff_eq_none, OrderedMap.isSome_find?_iff]
    exact h
  simp [neighbors, this]

end Graph

end Clausal
