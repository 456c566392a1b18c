import Clausal.Graph.Traversal

/-!
# Graphs that are explored again and again

A graph together with what its last traversal left behind. Exploring from a vertex goes on with what
is there, while a search of the whole graph and the numbering of its components begin by forgetting
it. Adding vertices and edges leaves it as it is.
-/

namespace Clausal

/-- A graph with the state of its last traversal. -/
structure Explored (α : Type) where
  graph : Graph α
  traversal : Traversal α

namespace Explored

variable {α : Type} [DecidableEq α]

/-- A graph that was never explored. -/
def fresh (g : Graph α) : Explored α := ⟨g, .start⟩

/-- Forgets the last traversal. -/
def reset (e : Explored α) : Explored α := { e with traversal := .start }

/-- Explores from a vertex that may be missing, going on with the last traversal, and tells whether
the vertex is there. -/
def explore (e : Explored α) (v : α) : Explored α × Bool :=
  let (t, found) := e.graph.exploreIfPresent e.traversal v
  ({ e with traversal := t }, found)

/-- Searches the whole graph anew and lists its vertices in the order in which they are finished. -/
def depthFirst (e : Explored α) : Explored α × List α :=
  let t := e.graph.exploreAll e.reset.traversal e.graph.vertices
  ({ e with traversal := t }, t.finished)

/-- Numbers the strongly connected components anew, and gives the number of each vertex. -/
def components (e : Explored α) : Explored α × OrderedMap α Nat :=
  let (_, order) := depthFirst (fresh e.graph.reverse)
  let t := e.graph.exploreAll e.reset.traversal order.reverse
  ({ e with traversal := t }, t.labels)

/-- The vertices that the last traversal has finished, the last one at the end. -/
def stack (e : Explored α) : List α := e.traversal.finished

end Explored

end Clausal
