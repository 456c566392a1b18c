import Clausal.Graph.Explored
import Clausal.Proofs.First
import Clausal.Proofs.Graph.Edges
import Clausal.Proofs.Graph.Exploration

/-!
# The depth-first forest

A search of the whole graph explores from one vertex after the other, and makes a tree of what each
of them reaches first. The vertices from which a tree grows are its roots. Main statements: the root
of a vertex is the first of all vertices that reaches it, and its number is the place of the root
(`Rooted`, kept by `Rooted.explore` and `Rooted.exploreAll`); and a vertex is finished after its
destinations, but for those that reach it back (`FinishingLaw.idxOf_lt`). Both together are said about
graphs that were searched before (`depthFirst_forest`).
-/

namespace Clausal

namespace Graph

variable {α : Type} [DecidableEq α] {g : Graph α}

/-- A destination that does not reach back is finished before. -/
lemma FinishingLaw.idxOf_lt {l : List α} {u w : α} (h : g.FinishingLaw l) (hu : u ∈ l)
    (huw : w ∈ g.neighbors u) (hn : ¬ g.Reaches w u) : l.idxOf w < l.idxOf u := by
  obtain ⟨l₁, l₂, rfl, hu₁⟩ := List.eq_append_cons_of_mem hu
  have hw : w ∈ l₁ := by
    rcases h l₁ u l₂ rfl u (by simp) w huw with hw | hw
    · rcases List.mem_append.mp hw with hw | hw
      · exact hw
      · rw [List.mem_singleton] at hw
        exact absurd (hw ▸ .refl) hn
    · exact absurd hw hn
  rw [List.idxOf_append_of_mem hw, List.idxOf_append_of_notMem hu₁, List.idxOf_cons_self]
  exact List.idxOf_lt_length_of_mem hw

/-! ### Roots -/

/-- The vertices that are visited after a search from the given ones, and the roots of the trees. Each
vertex has the number of its root, which is the first of the given vertices that reaches it. -/
structure Rooted (g : Graph α) (t : Traversal α) (seen roots : List α) : Prop where
  settled : g.Settled t
  sublist : roots.Sublist seen
  counter_eq : t.counter = roots.length
  mem_iff : ∀ r, r ∈ roots ↔ ∃ v, IsFirst (g.Reaches · v) seen r
  find?_iff : ∀ v i, t.labels.find? v = some i ↔
    ∃ r, IsFirst (g.Reaches · v) seen r ∧ i = roots.idxOf r + 1

/-- Before the search there are no roots, and no vertex is visited. -/
lemma rooted_start : g.Rooted .start [] [] where
  settled := settled_start
  sublist := .slnil
  counter_eq := rfl
  mem_iff := by
    intro r
    simp [IsFirst]
  find?_iff := by
    intro v i
    simp [IsFirst, Traversal.start]

variable {t : Traversal α} {seen roots : List α} {v : α}

/-- The visited vertices are those that some vertex searched from reaches. -/
lemma Rooted.visited_iff (h : g.Rooted t seen roots) (v : α) :
    t.visited v = true ↔ ∃ u ∈ seen, g.Reaches u v := by
  rw [Traversal.visited_iff]
  constructor
  · rintro ⟨i, hi⟩
    obtain ⟨r, hr, -⟩ := (h.find?_iff v i).mp hi
    exact ⟨r, hr.mem, hr.prop⟩
  · intro hv
    obtain ⟨r, hr⟩ := exists_isFirst hv
    exact ⟨_, (h.find?_iff v _).mpr ⟨r, hr, rfl⟩⟩

/-- A vertex that is visited already is the first to reach nothing. -/
lemma Rooted.skip (h : g.Rooted t seen roots) (hv : t.visited v = true) :
    g.Rooted t (seen ++ [v]) roots := by
  have hiff : ∀ w r, IsFirst (g.Reaches · w) (seen ++ [v]) r ↔ IsFirst (g.Reaches · w) seen r := by
    intro w r
    rw [isFirst_concat_iff]
    constructor
    · rintro (hr | ⟨-, hvw, hnone⟩)
      · exact hr
      · obtain ⟨u, hu, huv⟩ := (h.visited_iff v).mp hv
        exact absurd (huv.trans hvw) (hnone u hu)
    · exact Or.inl
  exact {
    settled := h.settled
    sublist := h.sublist.trans (List.sublist_append_left _ _)
    counter_eq := h.counter_eq
    mem_iff := by simpa only [hiff] using h.mem_iff
    find?_iff := by simpa only [hiff] using h.find?_iff }

/-- An unvisited vertex becomes a root, and the first to reach what was unvisited. -/
lemma Rooted.explore (hg : g.Closed) (h : g.Rooted t seen roots) (hv : v ∈ g.vertices)
    (hn : t.visited v = false) : g.Rooted (g.explore t.next v) (seen ++ [v]) (roots ++ [v]) := by
  have he := h.settled.next.explore hg hv hn
  generalize g.explore t.next v = t' at he
  have hnone : ∀ w, t.visited w = false → ∀ u ∈ seen, ¬ g.Reaches u w := by
    intro w hw u hu huw
    rw [(h.visited_iff w).mpr ⟨u, hu, huw⟩] at hw
    cases hw
  have hroot : v ∉ roots := fun hr => hnone v hn v (h.sublist.subset hr) .refl
  have hold : ∀ w r, IsFirst (g.Reaches · w) seen r → (roots ++ [v]).idxOf r = roots.idxOf r :=
    fun w r hr => List.idxOf_append_of_mem ((h.mem_iff r).mpr ⟨w, hr⟩)
  have hnew : (roots ++ [v]).idxOf v = t.counter := by
    rw [List.idxOf_append_of_notMem hroot, h.counter_eq, List.idxOf_cons_self, Nat.add_zero]
  exact {
    settled := he.settled
    sublist := h.sublist.append (.refl [v])
    counter_eq := by
      rw [he.counter_eq, List.length_append, ← h.counter_eq]
      rfl
    mem_iff := by
      intro r
      simp only [isFirst_concat_iff, List.mem_append, List.mem_singleton, h.mem_iff, exists_or]
      refine or_congr_right ⟨?_, ?_⟩
      · rintro rfl
        exact ⟨r, rfl, .refl, hnone r hn⟩
      · rintro ⟨-, rfl, -⟩
        rfl
    find?_iff := by
      intro w i
      constructor
      · intro hi
        -- the new root is the first to reach exactly what was unvisited before
        rcases he.find?_cases hi with ⟨-, hi⟩ | ⟨hw, rfl, hvw⟩
        · obtain ⟨r, hr, rfl⟩ := (h.find?_iff w i).mp hi
          exact ⟨r, isFirst_concat_iff.mpr (.inl hr), by rw [hold w r hr]⟩
        · exact ⟨v, isFirst_concat_iff.mpr (.inr ⟨rfl, hvw, hnone w hw⟩), by rw [hnew]⟩
      · rintro ⟨r, hr, rfl⟩
        rcases isFirst_concat_iff.mp hr with hr | ⟨rfl, hrw, hnot⟩
        · have hw : t.visited w = true := (h.visited_iff w).mpr ⟨r, hr.mem, hr.prop⟩
          rw [he.find?_old w hw, hold w r hr]
          exact (h.find?_iff w _).mpr ⟨r, hr, rfl⟩
        · have hw : t.visited w = false := by
            rw [← Bool.not_eq_true, h.visited_iff]
            rintro ⟨u, hu, huw⟩
            exact hnot u hu huw
          rw [hnew]
          exact he.find?_new w hw hrw }

/-- Searching from more vertices finds more roots, which are the first to reach their vertices. -/
lemma Rooted.exploreAll (hg : g.Closed) {rest : List α} (h : g.Rooted t seen roots)
    (hv : ∀ v ∈ rest, v ∈ g.vertices) :
    ∃ roots', g.Rooted (g.exploreAll t rest) (seen ++ rest) roots' := by
  induction rest generalizing t seen roots with
  | nil =>
    rw [List.append_nil]
    exact ⟨roots, h⟩
  | cons v rest ih =>
    obtain ⟨hv, hrest⟩ := List.forall_mem_cons.mp hv
    rw [List.append_cons, Graph.exploreAll]
    split
    · next hvis => exact ih (h.skip hvis) hrest
    · next hn => exact ih (h.explore hg hv (by simpa using hn)) hrest

/-- A search of the whole graph finds the roots of all vertices. -/
lemma rooted_depthFirst (hg : g.Closed) : ∃ roots, g.Rooted g.depthFirst g.vertices roots :=
  rooted_start.exploreAll hg fun _ hv => hv

/-- Every vertex has a root, since it reaches itself. -/
lemma exists_root {u : α} (hu : u ∈ g.vertices) : ∃ r, IsFirst (g.Reaches · u) g.vertices r :=
  exists_isFirst ⟨u, hu, .refl⟩

/-- Two vertices have the same number exactly if they have the same root. -/
lemma Rooted.find?_eq_iff (h : g.Rooted t g.vertices roots) {u w : α} (hu : u ∈ g.vertices) :
    t.labels.find? u = t.labels.find? w ↔
      ∃ r, IsFirst (g.Reaches · u) g.vertices r ∧ IsFirst (g.Reaches · w) g.vertices r := by
  obtain ⟨r, hr⟩ := exists_root hu
  have hfind := (h.find?_iff u _).mpr ⟨r, hr, rfl⟩
  rw [hfind, eq_comm, h.find?_iff]
  constructor
  · rintro ⟨r', hr', hi⟩
    have hmem : r ∈ roots := (h.mem_iff r).mpr ⟨u, hr⟩
    obtain rfl := (List.idxOf_inj hmem).mp (Nat.succ.inj hi)
    exact ⟨r, hr, hr'⟩
  · rintro ⟨r', hru, hrw⟩
    obtain rfl := hr.unique hru
    exact ⟨r, hrw, rfl⟩

/-- In an undirected graph reachability is symmetric. -/
lemma Built.reaches_symm (h : g.Built) (hd : g.directed = false) {u w : α} (hr : g.Reaches u w) :
    g.Reaches w u := by
  obtain ⟨edges, hedges⟩ := h.exists_lists
  induction hr with
  | refl => exact .refl
  | @tail v w _ hvw ih =>
    have hwv : v ∈ g.neighbors w := by
      rwa [← List.count_pos_iff, hedges.count_comm hd, List.count_pos_iff]
    exact .head hwv ih

/-- In an undirected graph the vertices with the same root are those that reach each other. -/
lemma Built.exists_root_iff (h : g.Built) (hd : g.directed = false) {u w : α}
    (hu : u ∈ g.vertices) :
    (∃ r, IsFirst (g.Reaches · u) g.vertices r ∧ IsFirst (g.Reaches · w) g.vertices r) ↔
      g.Reaches u w := by
  constructor
  · rintro ⟨r, hru, hrw⟩
    exact .trans (h.reaches_symm hd hru.prop) hrw.prop
  · intro huw
    obtain ⟨r, hr⟩ := exists_root hu
    exact ⟨r, hr, hr.congr fun _ => ⟨fun hx => .trans hx huw,
      fun hx => .trans hx (h.reaches_symm hd huw)⟩⟩

end Graph

namespace Explored

variable {α : Type} [DecidableEq α]

/-- Whatever an earlier traversal has left behind, a search of the whole graph lists every vertex
once, and each after its destinations, but for those that reach it back. Two vertices have the same
number exactly if the first vertex that reaches the one is the first vertex that reaches the other.
These first vertices are numbered from one on, in their order. In an undirected graph the vertices
with the same number are those that reach each other. -/
theorem depthFirst_forest (e : Explored α) (h : e.graph.Built) :
    let order := e.depthFirst.2
    let numbers := e.depthFirst.1.traversal.labels
    let root r v := IsFirst (fun u => e.graph.Reaches u v) e.graph.vertices r
    (e.depthFirst.1.graph = e.graph ∧ e.depthFirst.1.stack = order) ∧
    (order.Nodup ∧ ∀ v, v ∈ order ↔ v ∈ e.graph.vertices) ∧
    (∀ u, ∀ w ∈ e.graph.neighbors u, ¬ e.graph.Reaches w u → order.idxOf w < order.idxOf u) ∧
    (∀ u ∈ e.graph.vertices, ∀ w ∈ e.graph.vertices,
      numbers.find? u = numbers.find? w ↔ ∃ r, root r u ∧ root r w) ∧
    (∃ roots : List α, roots.Sublist e.graph.vertices ∧ (∀ r, r ∈ roots ↔ ∃ v, root r v) ∧
      ∀ v i, numbers.find? v = some i ↔ ∃ r, root r v ∧ i = roots.idxOf r + 1) ∧
    (e.graph.directed = false → ∀ u ∈ e.graph.vertices, ∀ w ∈ e.graph.vertices,
      numbers.find? u = numbers.find? w ↔ e.graph.Reaches u w) := by
  obtain ⟨hs, hfin⟩ := Graph.settled_depthFirst h.closed
  obtain ⟨roots, hrooted⟩ := Graph.rooted_depthFirst h.closed
  have horder : e.depthFirst.2 = e.graph.depthFirst.finished := rfl
  have hnumbers : e.depthFirst.1.traversal.labels = e.graph.depthFirst.labels := rfl
  have hnodup : e.graph.depthFirst.finished.Nodup := by simpa using hs.nodup
  rw [horder, hnumbers]
  refine ⟨⟨rfl, rfl⟩, ⟨hnodup, hfin⟩, ?_, ?_,
    ⟨roots, hrooted.sublist, hrooted.mem_iff, hrooted.find?_iff⟩, ?_⟩
  · intro u w huw hn
    have hu : u ∈ e.graph.vertices := Graph.mem_vertices_of_mem_neighbors huw
    exact hs.law.idxOf_lt ((hfin u).mpr hu) huw hn
  · intro u hu w _
    exact hrooted.find?_eq_iff hu
  · intro hd u hu w _
    rw [hrooted.find?_eq_iff hu]
    exact h.exists_root_iff hd hu

/-- The first vertex is reached from the third one only, where an exploration began before. -/
def lateSource : Explored Nat :=
  (explore (fresh (((Graph.empty true).addEdge 2 3).addEdge 1 2)) 1).1

/-- An edge without a direction. -/
def bothWays : Explored Nat := fresh ((Graph.empty false).addEdge 1 2)

/-- In the first example the third vertex has a number of its own and is finished after the first
one, which has the number of its destination; in the second one there is one number only. -/
theorem depthFirst_forest_lateSource :
    lateSource.graph.Built ∧ ¬ lateSource.graph.Reaches 2 1 ∧
    lateSource.depthFirst.2.idxOf 2 < lateSource.depthFirst.2.idxOf 1 ∧
    lateSource.depthFirst.1.traversal.labels.find? 2 =
      lateSource.depthFirst.1.traversal.labels.find? 3 ∧
    lateSource.depthFirst.1.traversal.labels.find? 2 ≠
      lateSource.depthFirst.1.traversal.labels.find? 1 ∧
    bothWays.graph.Built ∧ bothWays.graph.directed = false ∧
    bothWays.depthFirst.1.traversal.labels.find? 1 =
      bothWays.depthFirst.1.traversal.labels.find? 2 := by
  have hbuilt : lateSource.graph.Built := .addEdge 1 2 (.addEdge 2 3 (.empty true))
  have hbuilt' : bothWays.graph.Built := .addEdge 1 2 (.empty false)
  have hnot : ¬ lateSource.graph.Reaches 2 1 := by
    intro hr
    have hnone : lateSource.graph.neighbors 3 = [] := by decide
    have hnext : lateSource.graph.neighbors 2 = [3] := by decide
    rcases Relation.ReflTransGen.cases_head hr with h | ⟨w, hw, hr⟩
    · cases h
    rw [hnext, List.mem_singleton] at hw
    subst hw
    rcases Relation.ReflTransGen.cases_head hr with h | ⟨w, hw, -⟩
    · cases h
    · rw [hnone] at hw
      cases hw
  have hfirst : ∀ v, lateSource.graph.Reaches 2 v →
      IsFirst (lateSource.graph.Reaches · v) lateSource.graph.vertices 2 := by
    intro v hv
    exact ⟨[], [3, 1], by decide, hv, by simp⟩
  obtain ⟨-, -, hlaw, hsame, -⟩ := depthFirst_forest lateSource hbuilt
  obtain ⟨-, -, -, -, -, hsame'⟩ := depthFirst_forest bothWays hbuilt'
  refine ⟨hbuilt, hnot, hlaw 1 2 (by decide) hnot, ?_, ?_, hbuilt', rfl, ?_⟩
  · refine (hsame 2 (by decide) 3 (by decide)).mpr ⟨2, hfirst 2 .refl, hfirst 3 (.single ?_)⟩
    decide
  · intro heq
    obtain ⟨r, h₂, h₁⟩ := (hsame 2 (by decide) 1 (by decide)).mp heq
    obtain rfl := h₂.unique (hfirst 2 .refl)
    exact hnot h₁.prop
  · refine (hsame' rfl 1 (by decide) 2 (by decide)).mpr (.single ?_)
    decide

end Explored

end Clausal
