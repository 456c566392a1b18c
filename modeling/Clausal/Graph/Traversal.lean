import Clausal.Graph.Basic

/-!
# Depth-first search

Exploring a graph depth first. A vertex is labelled with a number when it is first met and is
finished after everything that could be reached from it. The search keeps a stack of frames, each
with a vertex and those of its destinations that are still to be looked at.

It ends because a frame is only put on the stack for a vertex that had no label, and otherwise the
frames get shorter.
-/

namespace Clausal

/-- How far an exploration has come. A vertex is visited when it has a label. -/
structure Traversal (α : Type) where
  /-- The number of each visited vertex, in the order of labelling. -/
  labels : OrderedMap α Nat
  /-- The vertices that are done with, the last one at the end. -/
  finished : List α
  /-- The number that new vertices are labelled with. -/
  counter : Nat

namespace Traversal

variable {α : Type} [DecidableEq α]

/-- Nothing is explored. -/
def start : Traversal α := ⟨OrderedMap.empty, [], 0⟩

/-- Whether a vertex has a label. -/
def visited (t : Traversal α) (v : α) : Bool := t.labels.contains v

/-- Labels a vertex with the current number. -/
def label (t : Traversal α) (v : α) : Traversal α :=
  { t with labels := t.labels.insert v t.counter }

/-- Notes that a vertex is done with. -/
def finish (t : Traversal α) (v : α) : Traversal α := { t with finished := t.finished ++ [v] }

/-- Goes on to the next number. -/
def next (t : Traversal α) : Traversal α := { t with counter := t.counter + 1 }

/-- Labelling a vertex makes it visited and changes nothing for the others. -/
theorem visited_label (t : Traversal α) (v w : α) :
    (t.label v).visited w = (decide (w = v) || t.visited w) := by
  simp only [visited, label, OrderedMap.contains, OrderedMap.find?_insert]
  by_cases h : w = v <;> simp [h]

end Traversal

namespace Graph

variable {α : Type} [DecidableEq α]

/-- A vertex and those of its destinations that are still to be looked at. -/
abbrev Frame (α : Type) := α × List α

/-- The vertices of the graph without a label. -/
def unvisited (g : Graph α) (t : Traversal α) : List α := g.vertices.filter fun v => !t.visited v

/-- The number of destinations that are still to be looked at. -/
def remaining : List (Frame α) → Nat
  | [] => 0
  | (_, dests) :: work => dests.length + remaining work

/-- Labelling a vertex takes it out of the unvisited ones. -/
theorem unvisited_label (g : Graph α) (t : Traversal α) (v : α) :
    g.unvisited (t.label v) = (g.unvisited t).filter (· ≠ v) := by
  simp only [unvisited, List.filter_filter]
  congr 1
  funext w
  rw [Traversal.visited_label]
  by_cases h : w = v <;> simp [h]

/-- Labelling a vertex leaves no more unvisited ones. -/
theorem length_unvisited_label_le (g : Graph α) (t : Traversal α) (v : α) :
    (g.unvisited (t.label v)).length ≤ (g.unvisited t).length := by
  rw [unvisited_label]
  exact List.length_filter_le _ _

/-- Labelling an unvisited vertex leaves fewer. -/
theorem length_unvisited_label_lt {g : Graph α} {t : Traversal α} {v : α} (hv : v ∈ g.vertices)
    (ht : t.visited v = false) : (g.unvisited (t.label v)).length < (g.unvisited t).length := by
  rw [unvisited_label]
  apply List.length_filter_lt_length_iff_exists.mpr
  exact ⟨v, by simp [unvisited, hv, ht], by simp⟩

/-- Works off a stack of frames, the top one first. -/
def walk (g : Graph α) (t : Traversal α) : List (Frame α) → Traversal α
  | [] => t
  | (v, []) :: work => g.walk (t.finish v) work
  | (v, d :: dests) :: work =>
    if _hd : t.visited d then g.walk t ((v, dests) :: work)
    else g.walk (t.label d) ((d, g.neighbors d) :: (v, dests) :: work)
termination_by work => ((g.unvisited t).length, 2 * remaining work + work.length)
decreasing_by
  · apply Prod.Lex.right
    simp [remaining]
  · apply Prod.Lex.right
    simp only [remaining, List.length_cons]
    omega
  · by_cases hv : d ∈ g.vertices
    · exact Prod.Lex.left _ _ (length_unvisited_label_lt hv (by simpa using _hd))
    · have hle := length_unvisited_label_le g t d
      rcases Nat.lt_or_eq_of_le hle with hlt | heq
      · exact Prod.Lex.left _ _ hlt
      · rw [heq]
        apply Prod.Lex.right
        rw [neighbors_eq_nil hv]
        simp only [remaining, List.length_cons, List.length_nil]
        omega

/-- Labels a vertex and everything that can be reached from it through vertices without a label, and
finishes each of them after its descendants. -/
def explore (g : Graph α) (t : Traversal α) (v : α) : Traversal α :=
  g.walk (t.label v) [(v, g.neighbors v)]

/-- Explores from a vertex that may be missing, and tells whether it is there. A missing vertex gets
a label all the same, and nothing else happens. -/
def exploreIfPresent (g : Graph α) (t : Traversal α) (v : α) : Traversal α × Bool :=
  if g.contains v then (g.explore t v, true) else (t.label v, false)

/-- Explores under a new number from each listed vertex that has no label when its turn comes. -/
def exploreAll (g : Graph α) (t : Traversal α) : List α → Traversal α
  | [] => t
  | v :: rest =>
    if t.visited v then g.exploreAll t rest else g.exploreAll (g.explore t.next v) rest

/-- Explores the whole graph in the order of its vertices, with a number for each tree. -/
def depthFirst (g : Graph α) : Traversal α := g.exploreAll .start g.vertices

/-- Numbers the strongly connected components: the graph is explored from the vertices that are
finished last when all edges are turned around. A component is numbered before every other component
that has an edge into it. -/
def components (g : Graph α) : Traversal α :=
  g.exploreAll .start g.reverse.depthFirst.finished.reverse

end Graph

end Clausal
