import Clausal.Graph.Basic
import Mathlib.Logic.Relation
import Mathlib.Tactic.Lemma

/-!
# Adjacency and reachability

What the operations on graphs do to the vertices and to the destinations of each vertex. Main
statements: in a graph built by adding vertices and edges every destination is a vertex
(`Built.closed`), and turning all edges around keeps the vertices (`vertices_reverse`), lists at
each vertex the sources of its edges (`neighbors_reverse`) and turns reachability around
(`reaches_reverse_iff`).
-/

namespace Clausal

/-- The entries of a map are its keys with the values that are found for them. -/
lemma OrderedMap.mem_entries_iff {α β : Type} [DecidableEq α] {m : OrderedMap α β} {k : α} {b : β} :
    (k, b) ∈ m.entries ↔ m.find? k = some b := by
  obtain ⟨l, hl⟩ := m
  simp only [find?]
  induction l with
  | nil => simp [lookup]
  | cons e rest ih =>
    obtain ⟨k', b'⟩ := e
    obtain ⟨hk, hrest⟩ := List.nodup_cons.mp hl
    simp only [lookup, List.mem_cons, Prod.mk.injEq]
    by_cases h : k' = k
    · subst h
      have hnot : (k', b) ∉ rest := fun hm => hk (List.mem_map.mpr ⟨_, hm, rfl⟩)
      simp [hnot, eq_comm]
    · have h' : ¬ k = k' := fun e => h e.symm
      simp only [h, h', false_and, false_or, ↓reduceIte]
      exact ih hrest

/-- The values of a map are those that are found for some key. -/
lemma OrderedMap.mem_values_iff {α β : Type} [DecidableEq α] {m : OrderedMap α β} {b : β} :
    b ∈ m.values ↔ ∃ k, m.find? k = some b := by
  rw [values, List.mem_map]
  constructor
  · rintro ⟨⟨k, b'⟩, he, rfl⟩
    exact ⟨k, mem_entries_iff.mp he⟩
  · rintro ⟨k, hk⟩
    exact ⟨(k, b), mem_entries_iff.mpr hk, rfl⟩

/-- A map is determined by its keys in their order and their values. -/
lemma OrderedMap.ext_find? {α β : Type} [DecidableEq α] {m m' : OrderedMap α β}
    (hkeys : m.keys = m'.keys) (hfind : ∀ k, m.find? k = m'.find? k) : m = m' := by
  have hlen : m.entries.length = m'.entries.length := by
    simpa [keys] using congrArg List.length hkeys
  have hentries : m.entries = m'.entries := by
    refine List.ext_getElem hlen ?_
    intro i h h'
    have hfst : m.entries[i].1 = m'.entries[i].1 := by
      have e := List.getElem_of_eq hkeys (i := i) (by simpa [keys] using h)
      simpa [keys] using e
    have hval : m.find? m.entries[i].1 = some m.entries[i].2 :=
      mem_entries_iff.mp (List.getElem_mem h)
    have hval' : m'.find? m'.entries[i].1 = some m'.entries[i].2 :=
      mem_entries_iff.mp (List.getElem_mem h')
    rw [hfind, hfst, hval'] at hval
    exact Prod.ext hfst (Option.some.inj hval).symm
  cases m
  cases m'
  cases hentries
  rfl

namespace Graph

variable {α : Type} [DecidableEq α]

/-! ### Vertices and destinations -/

omit [DecidableEq α] in
/-- A graph has each of its vertices once. -/
lemma nodup_vertices (g : Graph α) : g.vertices.Nodup := g.adjacency.nodup

/-- The destinations of a vertex are what is found for it, and nothing is found for what is no
vertex. -/
lemma find?_eq (g : Graph α) (v : α) :
    g.adjacency.find? v = if v ∈ g.vertices then some (g.neighbors v) else none := by
  have hkey : (g.adjacency.find? v).isSome = true ↔ v ∈ g.vertices :=
    OrderedMap.isSome_find?_iff g.adjacency v
  cases hv : g.adjacency.find? v with
  | none => simp [← hkey, hv]
  | some ds => simp [← hkey, hv, neighbors]

/-- Only vertices have destinations. -/
lemma mem_vertices_of_mem_neighbors {g : Graph α} {u w : α} (h : w ∈ g.neighbors u) :
    u ∈ g.vertices := by
  by_cases hu : u ∈ g.vertices
  · exact hu
  · rw [neighbors_eq_nil hu] at h
    cases h

/-- Adding a vertex changes no destinations. -/
@[simp]
lemma neighbors_addVertex (g : Graph α) (v u : α) :
    (g.addVertex v).neighbors u = g.neighbors u := by
  simp only [neighbors, addVertex, OrderedMap.find?_alter]
  split
  · next h => simp [h]
  · rfl

/-- A new vertex comes to the end of the vertices. -/
lemma vertices_addVertex (g : Graph α) (v : α) :
    (g.addVertex v).vertices = if v ∈ g.vertices then g.vertices else g.vertices ++ [v] :=
  OrderedMap.keys_alter _ _ _

/-- The vertex added is the only one that comes to a graph. -/
@[simp]
lemma mem_vertices_addVertex {g : Graph α} {v u : α} :
    u ∈ (g.addVertex v).vertices ↔ u ∈ g.vertices ∨ u = v := by
  rw [vertices_addVertex]
  split
  · next h =>
    constructor
    · exact Or.inl
    · rintro (hu | rfl)
      · exact hu
      · exact h
  · simp

/-- An arc adds its destination at the end of those of its source. -/
lemma neighbors_addArc (g : Graph α) (a b u : α) :
    (g.addArc a b).neighbors u = if u = a then g.neighbors u ++ [b] else g.neighbors u := by
  simp only [neighbors, addArc, OrderedMap.find?_alter]
  split
  · next h => simp [h]
  · rfl

/-- The arc added is the only one that comes to a graph. -/
lemma mem_neighbors_addArc {g : Graph α} {a b u w : α} :
    w ∈ (g.addArc a b).neighbors u ↔ w ∈ g.neighbors u ∨ (u = a ∧ w = b) := by
  rw [neighbors_addArc]
  split
  · next h => simp [h]
  · next h => simp [h]

/-- An arc from a vertex adds no vertex. -/
lemma vertices_addArc {g : Graph α} {a : α} (h : a ∈ g.vertices) (b : α) :
    (g.addArc a b).vertices = g.vertices := by
  simp only [vertices, addArc, OrderedMap.keys_alter]
  exact if_pos h

/-- An edge adds its source first and then its destination, if they are not there yet. -/
lemma vertices_addEdge (g : Graph α) (a b : α) :
    (g.addEdge a b).vertices = ((g.addVertex a).addVertex b).vertices := by
  have ha : a ∈ ((g.addVertex a).addVertex b).vertices := by simp
  have hb : b ∈ (((g.addVertex a).addVertex b).addArc a b).vertices := by
    simp [vertices_addArc ha]
  unfold addEdge
  split
  · exact vertices_addArc ha b
  · exact (vertices_addArc hb a).trans (vertices_addArc ha b)

/-- The vertices that come to a graph with an edge are its two ends. -/
@[simp]
lemma mem_vertices_addEdge {g : Graph α} {a b u : α} :
    u ∈ (g.addEdge a b).vertices ↔ u ∈ g.vertices ∨ u = a ∨ u = b := by
  simp [vertices_addEdge, or_assoc]

/-- An edge does not change whether a graph is directed. -/
@[simp]
lemma directed_addEdge (g : Graph α) (a b : α) : (g.addEdge a b).directed = g.directed := by
  unfold addEdge
  split <;> rfl

/-- An edge adds the destination at its source, and the source at its destination too if the graph
is undirected. -/
lemma mem_neighbors_addEdge {g : Graph α} {a b u w : α} :
    w ∈ (g.addEdge a b).neighbors u ↔
      w ∈ g.neighbors u ∨ (u = a ∧ w = b) ∨ (g.directed = false ∧ u = b ∧ w = a) := by
  unfold addEdge
  split
  · next hd =>
    have hd : g.directed = true := by simpa [addArc, addVertex] using hd
    simp [mem_neighbors_addArc, hd]
  · next hd =>
    have hd : g.directed = false := by simpa [addArc, addVertex] using hd
    simp [mem_neighbors_addArc, hd, or_assoc]

/-! ### Graphs that are built -/

/-- A graph that was built by adding vertices and edges. -/
inductive Built : Graph α → Prop where
  | empty (directed) :
    Built (Graph.empty directed)
  | addVertex {g} (v) :
    Built g →
    Built (g.addVertex v)
  | addEdge {g} (a b) :
    Built g →
    Built (g.addEdge a b)

/-- Every destination is a vertex. -/
def Closed (g : Graph α) : Prop := ∀ u, ∀ w ∈ g.neighbors u, w ∈ g.vertices

/-- A graph stays closed when a vertex is added. -/
lemma Closed.addVertex {g : Graph α} (h : g.Closed) (v : α) : (g.addVertex v).Closed := by
  intro u w hw
  rw [neighbors_addVertex] at hw
  exact mem_vertices_addVertex.mpr (.inl (h u w hw))

/-- A graph stays closed when an edge is added, since both its ends become vertices. -/
lemma Closed.addEdge {g : Graph α} (h : g.Closed) (a b : α) : (g.addEdge a b).Closed := by
  intro u w hw
  rw [mem_vertices_addEdge]
  rcases mem_neighbors_addEdge.mp hw with hw | ⟨-, rfl⟩ | ⟨-, -, rfl⟩
  · exact .inl (h u w hw)
  · exact .inr (.inr rfl)
  · exact .inr (.inl rfl)

/-- In a graph that was built every destination is a vertex. -/
lemma Built.closed {g : Graph α} (h : g.Built) : g.Closed := by
  induction h with
  | empty d =>
    intro u w hw
    cases hw
  | addVertex v _ ih => exact ih.addVertex v
  | addEdge a b _ ih => exact ih.addEdge a b

/-! ### Turning edges around -/

/-- The arcs of a graph are the pairs of a vertex and one of its destinations. -/
lemma mem_arcs_iff {g : Graph α} {u w : α} : (u, w) ∈ g.arcs ↔ w ∈ g.neighbors u := by
  simp only [arcs, List.mem_flatMap, List.mem_map, Prod.mk.injEq, neighbors]
  constructor
  · rintro ⟨⟨v, dests⟩, he, d, hd, rfl, rfl⟩
    rw [OrderedMap.mem_entries_iff.mp he]
    exact hd
  · intro hw
    cases hf : g.adjacency.find? u with
    | none =>
      rw [hf] at hw
      cases hw
    | some dests =>
      rw [hf] at hw
      exact ⟨(u, dests), OrderedMap.mem_entries_iff.mpr hf, w, hw, rfl, rfl⟩

/-- Adding vertices that are not there yet puts them at the end in their order. -/
lemma vertices_foldl_addVertex {l : List α} {g : Graph α} (h : (g.vertices ++ l).Nodup) :
    (l.foldl addVertex g).vertices = g.vertices ++ l := by
  induction l generalizing g with
  | nil => simp
  | cons v rest ih =>
    have hv : v ∉ g.vertices := by
      intro hv
      exact (List.nodup_append.mp h).2.2 v hv v (by simp) rfl
    have hg : (g.addVertex v).vertices = g.vertices ++ [v] := by
      rw [vertices_addVertex, if_neg hv]
    have hrest : ((g.addVertex v).vertices ++ rest).Nodup := by
      rw [hg, List.append_assoc]
      exact h
    rw [List.foldl_cons, ih hrest, hg, List.append_assoc]
    rfl

/-- Adding several vertices changes no destinations. -/
lemma neighbors_foldl_addVertex (l : List α) (g : Graph α) (u : α) :
    (l.foldl addVertex g).neighbors u = g.neighbors u := by
  induction l generalizing g with
  | nil => rfl
  | cons v rest ih => rw [List.foldl_cons, ih, neighbors_addVertex]

/-- Adding arcs the other way round lists at each vertex the sources of the arcs to it. -/
lemma neighbors_foldl_addArc (l : List (α × α)) (g : Graph α) (u : α) :
    (l.foldl (fun r (a, b) => r.addArc b a) g).neighbors u =
      g.neighbors u ++ (l.filter (·.2 = u)).map (·.1) := by
  induction l generalizing g with
  | nil => simp
  | cons e rest ih =>
    obtain ⟨a, b⟩ := e
    rw [List.foldl_cons, ih, neighbors_addArc]
    by_cases h : b = u
    · subst h
      simp
    · have h' : ¬ u = b := fun e => h e.symm
      simp [h, h']

/-- Arcs that are added the other way round between vertices add no vertex. -/
lemma vertices_foldl_addArc {l : List (α × α)} {g : Graph α} (h : ∀ e ∈ l, e.2 ∈ g.vertices) :
    (l.foldl (fun r (a, b) => r.addArc b a) g).vertices = g.vertices := by
  induction l generalizing g with
  | nil => rfl
  | cons e rest ih =>
    obtain ⟨he, hrest⟩ := List.forall_mem_cons.mp h
    have hg := vertices_addArc he e.1
    rw [List.foldl_cons, ih (by rwa [hg]), hg]

omit [DecidableEq α] in
/-- What no single step changes, whether a graph is directed, stays through all of them. -/
lemma directed_foldl {β : Type} {f : Graph α → β → Graph α}
    (hf : ∀ g b, (f g b).directed = g.directed) (l : List β) (g : Graph α) :
    (l.foldl f g).directed = g.directed := by
  induction l generalizing g with
  | nil => rfl
  | cons b rest ih => rw [List.foldl_cons, ih, hf]

/-- Turning edges around does not change whether a graph is directed. -/
@[simp]
lemma directed_reverse (g : Graph α) : g.reverse.directed = g.directed := by
  have hvertices : (g.vertices.foldl addVertex (Graph.empty g.directed)).directed = g.directed :=
    directed_foldl (f := addVertex) (fun _ _ => rfl) g.vertices _
  have harcs := directed_foldl (f := fun r (a, b) => addArc r b a) (fun _ _ => rfl) g.arcs
    (g.vertices.foldl addVertex (Graph.empty g.directed))
  exact harcs.trans hvertices

/-- Turning edges around lists at each vertex the sources of its edges, in the order of the arcs. -/
lemma neighbors_reverse (g : Graph α) (u : α) :
    g.reverse.neighbors u = (g.arcs.filter (·.2 = u)).map (·.1) := by
  simp only [reverse, neighbors_foldl_addArc, neighbors_foldl_addVertex]
  rfl

/-- Turning edges around exchanges the ends of each edge. -/
lemma mem_neighbors_reverse {g : Graph α} {u w : α} :
    w ∈ g.reverse.neighbors u ↔ u ∈ g.neighbors w := by
  rw [neighbors_reverse, ← mem_arcs_iff]
  simp

/-- The graph without edges to which the edges are added the other way round has the vertices in
their order. -/
lemma vertices_bare (g : Graph α) :
    (g.vertices.foldl addVertex (Graph.empty g.directed)).vertices = g.vertices := by
  rw [vertices_foldl_addVertex]
  · rfl
  · exact g.nodup_vertices

/-- Turning edges around keeps the vertices in their order. -/
lemma vertices_reverse {g : Graph α} (h : g.Closed) : g.reverse.vertices = g.vertices := by
  have harcs : ∀ e ∈ g.arcs,
      e.2 ∈ (g.vertices.foldl addVertex (Graph.empty g.directed)).vertices := by
    intro e he
    rw [vertices_bare]
    exact h e.1 e.2 (mem_arcs_iff.mp he)
  simp only [reverse]
  rw [vertices_foldl_addArc harcs, vertices_bare]

/-- A closed graph stays closed when its edges are turned around. -/
lemma Closed.reverse {g : Graph α} (h : g.Closed) : g.reverse.Closed := by
  intro u w hw
  rw [mem_neighbors_reverse] at hw
  rw [vertices_reverse h]
  exact mem_vertices_of_mem_neighbors hw

/-! ### Reachability -/

/-- One vertex can be reached from another along edges. -/
def Reaches (g : Graph α) : α → α → Prop := Relation.ReflTransGen fun u w => w ∈ g.neighbors u

/-- A vertex can be reached in the graph with the edges turned around if it reaches the other one in
the graph itself. -/
lemma reaches_reverse_iff {g : Graph α} {u w : α} : g.reverse.Reaches u w ↔ g.Reaches w u := by
  have hswap : (fun u w => w ∈ g.reverse.neighbors u) =
      Function.swap fun u w => w ∈ g.neighbors u := by
    funext u w
    exact propext mem_neighbors_reverse
  rw [Reaches, hswap, Relation.reflTransGen_swap]
  rfl

/-- In a closed graph a vertex reaches nothing but vertices. -/
lemma Closed.mem_vertices_of_reaches {g : Graph α} (h : g.Closed) {u w : α} (hu : u ∈ g.vertices)
    (hr : g.Reaches u w) : w ∈ g.vertices := by
  induction hr with
  | refl => exact hu
  | tail _ hw _ => exact h _ _ hw

end Graph

end Clausal
