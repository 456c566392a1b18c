import Clausal.Graph.Explored
import Clausal.Proofs.Graph.Exploration

/-!
# Strongly connected components

Why exploring a graph from the vertices that are finished last when all edges are turned around
numbers its strongly connected components. The vertices that are new in an exploration from such a
vertex reach it back (`FinishingLaw.reaches_last`), so that they make up its component, and what they
reach beyond it has a smaller number already (`Numbered.explore`). Main statement: the numbers are
those of the components, from one on without a gap, and go down along the edges
(`components_numbered`).
-/

namespace Clausal

/-- A chain of steps that leaves a set has a step out of it. -/
lemma exists_step_out {α : Type} {r : α → α → Prop} {s : α → Prop} {x y : α}
    (h : Relation.ReflTransGen r x y) (hx : s x) (hy : ¬ s y) :
    ∃ u w, s u ∧ r u w ∧ ¬ s w ∧ Relation.ReflTransGen r w y := by
  induction h using Relation.ReflTransGen.head_induction_on with
  | refl => exact absurd hx hy
  | @head u w huw hwy ih =>
    by_cases hw : s w
    · exact ih hw
    · exact ⟨u, w, hx, huw, hw, hwy⟩

namespace Graph

variable {α : Type} [DecidableEq α] {g : Graph α}

/-! ### What reaches the vertex finished last -/

/-- If the vertex finished last can be reached along vertices finished before it, it reaches the
vertex where they begin. -/
lemma FinishingLaw.reaches_last {l l₁ l₂ : List α} {r x : α} (h : g.FinishingLaw l)
    (hn : l.Nodup) (hl : l = l₁ ++ r :: l₂) (hx : x ∈ l₁ ++ [r])
    (hr : Relation.ReflTransGen (fun u w => w ∈ g.neighbors u ∧ w ∈ l₁ ++ [r]) x r) :
    g.Reaches r x := by
  -- the induction is on the vertices between the beginning of the path and its end
  obtain ⟨m₁, m₂, hm⟩ := List.append_of_mem hx
  induction hk : m₂.length using Nat.strongRecOn generalizing x m₁ m₂ with
  | _ k ih =>
    by_cases hxr : x = r
    · subst hxr
      exact .refl
    have hsplit : l = m₁ ++ x :: (m₂ ++ l₂) := by
      have e : l = (l₁ ++ [r]) ++ l₂ := by simp [hl]
      rw [e, hm]
      simp
    have hr₂ : r ∈ m₂ := by
      rcases List.eq_nil_or_concat m₂ with rfl | ⟨m₃, y, rfl⟩
      · obtain ⟨-, e⟩ := List.append_inj' hm rfl
        cases e
        exact absurd rfl hxr
      · rw [List.concat_eq_append, ← List.cons_append, ← List.append_assoc] at hm
        obtain ⟨-, e⟩ := List.append_inj' hm rfl
        cases e
        simp
    have hout : r ∉ m₁ ++ [x] := by
      intro hr₁
      have hn' : ((m₁ ++ [x]) ++ (m₂ ++ l₂)).Nodup := by
        rw [List.append_assoc]
        exact hsplit ▸ hn
      exact (List.nodup_append.mp hn').2.2 r hr₁ r (by simp [hr₂]) rfl
    -- where the path leaves what is finished up to `x`, it meets a vertex that reaches `x`
    obtain ⟨u, w, hu, ⟨huw, hwl⟩, hw, hwr⟩ := exists_step_out hr (by simp) hout
    rcases h m₁ x (m₂ ++ l₂) hsplit u hu w huw with hin | hwx
    · exact absurd hin hw
    have hw₂ : w ∈ m₂ := by
      rw [hm] at hwl
      rcases List.mem_append.mp hwl with hin | hin
      · exact absurd (List.mem_append_left _ hin) hw
      rcases List.mem_cons.mp hin with rfl | hin
      · exact absurd (by simp) hw
      · exact hin
    obtain ⟨n₁, n₂, rfl⟩ := List.append_of_mem hw₂
    have hlt : n₂.length < k := by
      rw [← hk, List.length_append, List.length_cons]
      omega
    have hrw := ih n₂.length hlt hwl hwr (m₁ ++ x :: n₁) n₂ (by simpa using hm) rfl
    exact Relation.ReflTransGen.trans hrw hwx

/-! ### The invariant of the numbers -/

/-- The visited vertices have the numbers of their components: the numbers are those from one to the
present one, they are equal for vertices that reach each other, and they go down along the edges and
towards the bottom of the finishing stack. -/
structure Numbered (g : Graph α) (t : Traversal α) : Prop where
  settled : g.Settled t
  number_iff : ∀ i, (∃ v, t.labels.find? v = some i) ↔ 1 ≤ i ∧ i ≤ t.counter
  eq_iff : ∀ u w i j, t.labels.find? u = some i → t.labels.find? w = some j →
    (i = j ↔ g.Reaches u w ∧ g.Reaches w u)
  le_of_arc : ∀ u w i j, w ∈ g.neighbors u → t.labels.find? u = some i →
    t.labels.find? w = some j → j ≤ i
  sorted : t.finished.Pairwise fun u w => ∀ i j, t.labels.find? u = some i →
    t.labels.find? w = some j → i ≤ j

/-- Before anything is visited, there are no numbers that could be wrong. -/
lemma numbered_start : g.Numbered .start where
  settled := settled_start
  number_iff := by
    intro i
    constructor
    · rintro ⟨v, hv⟩
      cases hv
    · rintro ⟨h₁, h₂⟩
      have h₂ : i ≤ 0 := h₂
      omega
  eq_iff := by
    intro u w i j hu
    cases hu
  le_of_arc := by
    intro u w i j _ hu
    cases hu
  sorted := .nil

/-- When nothing is pending, no visited vertex reaches an unvisited one. -/
lemma Settled.not_reaches {t : Traversal α} {u w : α} (h : g.Settled t)
    (hu : t.visited u = true) (hw : t.visited w = false) : ¬ g.Reaches u w := by
  intro huw
  rw [h.visited_of_reaches hu huw] at hw
  cases hw

/-- No vertex has a number greater than the present one. -/
lemma Numbered.le_counter {t : Traversal α} {v : α} {i : Nat} (h : g.Numbered t)
    (hi : t.labels.find? v = some i) : i ≤ t.counter :=
  ((h.number_iff i).mp ⟨v, hi⟩).2

/-- Exploring under a new number from a vertex that all new vertices reach back keeps the numbers
equal exactly for vertices that reach each other. -/
lemma Numbered.eq_iff_explores {t t' : Traversal α} {r u w : α} {i j : Nat} (h : g.Numbered t)
    (he : g.Explores t.next r t')
    (hback : ∀ x, t.visited x = false → g.Reaches r x → g.Reaches x r)
    (hu : t'.labels.find? u = some i) (hw : t'.labels.find? w = some j) :
    i = j ↔ g.Reaches u w ∧ g.Reaches w u := by
  rcases he.find?_cases hu with ⟨hvu, hui⟩ | ⟨hvu, rfl, hru⟩ <;>
    rcases he.find?_cases hw with ⟨hvw, hwj⟩ | ⟨hvw, rfl, hrw⟩
  · exact h.eq_iff u w i j hui hwj
  · have hi := h.le_counter hui
    constructor
    · omega
    · rintro ⟨huw, -⟩
      exact absurd huw (h.settled.not_reaches hvu hvw)
  · have hj := h.le_counter hwj
    constructor
    · omega
    · rintro ⟨-, hwu⟩
      exact absurd hwu (h.settled.not_reaches hvw hvu)
  · constructor
    · intro _
      exact ⟨.trans (hback u hvu hru) hrw, .trans (hback w hvw hrw) hru⟩
    · intro _
      rfl

/-- Exploring under a new number keeps the numbers going down along the edges. -/
lemma Numbered.le_of_arc_explores {t t' : Traversal α} {r u w : α} {i j : Nat}
    (h : g.Numbered t) (he : g.Explores t.next r t') (huw : w ∈ g.neighbors u)
    (hu : t'.labels.find? u = some i) (hw : t'.labels.find? w = some j) : j ≤ i := by
  rcases he.find?_cases hu with ⟨hvu, hui⟩ | ⟨hvu, rfl, -⟩ <;>
    rcases he.find?_cases hw with ⟨hvw, hwj⟩ | ⟨hvw, rfl, -⟩
  · exact h.le_of_arc u w i j huw hui hwj
  · exact absurd (.single huw) (h.settled.not_reaches hvu hvw)
  · exact Nat.le_succ_of_le (h.le_counter hwj)
  · exact Nat.le_refl _

/-- Exploring under a new number keeps the stack sorted. -/
lemma Numbered.sorted_explores {t t' : Traversal α} {r : α} (h : g.Numbered t)
    (he : g.Explores t.next r t') :
    t'.finished.Pairwise fun u w => ∀ i j, t'.labels.find? u = some i →
      t'.labels.find? w = some j → i ≤ j := by
  obtain ⟨l, hl, hnew⟩ := he.finished_eq
  have hold : ∀ u ∈ t.finished, t.visited u = true := fun u hu =>
    h.settled.visited_iff_mem.mpr hu
  have hnumber : ∀ w ∈ l, ∀ j, t'.labels.find? w = some j → j = t.counter + 1 := by
    intro w hw j hj
    rcases he.find?_cases hj with ⟨hvw, -⟩ | ⟨-, hj, -⟩
    · rw [show t.visited w = false from hnew w hw] at hvw
      cases hvw
    · exact hj
  rw [hl, List.pairwise_append]
  refine ⟨?_, ?_, ?_⟩
  · refine List.Pairwise.imp_of_mem ?_ h.sorted
    intro u w hu hw hle i j hui hwj
    exact hle i j ((he.find?_old u (hold u hu)).symm.trans hui)
      ((he.find?_old w (hold w hw)).symm.trans hwj)
  · apply List.pairwise_of_forall_mem_list
    intro u hu w hw i j hui hwj
    exact Nat.le_of_eq ((hnumber u hu i hui).trans (hnumber w hw j hwj).symm)
  · intro u hu w hw i j hui hwj
    have hi := h.le_counter ((he.find?_old u (hold u hu)).symm.trans hui)
    rw [hnumber w hw j hwj]
    exact Nat.le_succ_of_le hi

/-- Exploring from an unvisited vertex under a new number keeps the invariant, if all new vertices
reach it back. -/
lemma Numbered.explore (hg : g.Closed) {t : Traversal α} {r : α} (h : g.Numbered t)
    (hr : r ∈ g.vertices) (hn : t.visited r = false)
    (hback : ∀ x, t.visited x = false → g.Reaches r x → g.Reaches x r) :
    g.Numbered (g.explore t.next r) := by
  have he := h.settled.next.explore hg hr hn
  generalize g.explore t.next r = t' at he
  have hcounter : t'.counter = t.counter + 1 := he.counter_eq
  exact {
    settled := he.settled
    number_iff := by
      intro i
      rw [hcounter]
      constructor
      · rintro ⟨v, hv⟩
        rcases he.find?_cases hv with ⟨-, hold⟩ | ⟨-, rfl, -⟩
        · obtain ⟨h₁, h₂⟩ := (h.number_iff i).mp ⟨v, hold⟩
          exact ⟨h₁, Nat.le_succ_of_le h₂⟩
        · omega
      · rintro ⟨h₁, h₂⟩
        by_cases hi : i = t.counter + 1
        · exact ⟨r, hi ▸ he.find?_new r hn .refl⟩
        · obtain ⟨v, hv⟩ := (h.number_iff i).mpr ⟨h₁, by omega⟩
          have hvis : t.visited v = true := Traversal.visited_iff.mpr ⟨i, hv⟩
          exact ⟨v, (he.find?_old v hvis).trans hv⟩
    eq_iff := fun u w i j hu hw => h.eq_iff_explores he hback hu hw
    le_of_arc := fun u w i j huw hu hw => h.le_of_arc_explores he huw hu hw
    sorted := h.sorted_explores he }

/-- A path to an unvisited vertex runs along unvisited vertices. -/
lemma Settled.reflTransGen_of_reaches {t : Traversal α} {s : α → Prop} {r x : α}
    (h : g.Settled t) (hs : ∀ v, v ∈ g.vertices → t.visited v = false → s v) (hg : g.Closed)
    (hrv : r ∈ g.vertices) (hx : t.visited x = false) (hr : g.Reaches r x) :
    Relation.ReflTransGen (fun u w => w ∈ g.reverse.neighbors u ∧ s w) x r := by
  induction hr with
  | refl => exact .refl
  | @tail y x hry hyx ih =>
    have hy : t.visited y = false := by
      cases hy : t.visited y with
      | false => rfl
      | true =>
        rw [h.visited_of_reaches hy (.single hyx)] at hx
        cases hx
    have hyv : y ∈ g.vertices := hg.mem_vertices_of_reaches hrv hry
    exact .head ⟨mem_neighbors_reverse.mpr hyx, hs y hyv hy⟩ (ih hy)

/-- Exploring from the vertices of a finishing order of the graph with its edges turned around, the
last one first, keeps the invariant. -/
lemma Numbered.exploreAll (hg : g.Closed) {l : List α} (hlaw : g.reverse.FinishingLaw l)
    (hnodup : l.Nodup) (hmem : ∀ v, v ∈ l ↔ v ∈ g.vertices) {rest : List α} :
    ∀ {t : Traversal α} {seen : List α}, g.Numbered t → l.reverse = seen ++ rest →
      (∀ v ∈ seen, t.visited v = true) → g.Numbered (g.exploreAll t rest) := by
  -- the induction is on the vertices to come, and all those before them are visited
  induction rest with
  | nil =>
    intro t seen h _ _
    exact h
  | cons r rest ih =>
    intro t seen h hl hseen
    have hl' : l.reverse = (seen ++ [r]) ++ rest := by simpa using hl
    have hrl : r ∈ g.vertices := by
      rw [← hmem, ← List.mem_reverse, hl]
      simp
    simp only [Graph.exploreAll]
    split
    · next hvis =>
      apply ih h hl'
      intro v hv
      rcases List.mem_append.mp hv with hv | hv
      · exact hseen v hv
      · rw [List.mem_singleton] at hv
        exact hv ▸ hvis
    · next hn =>
      have hn : t.visited r = false := by simpa using hn
      have hsplit : l = rest.reverse ++ r :: seen.reverse := by
        rw [← List.reverse_reverse l, hl]
        simp
      -- what is unvisited is still in front of `r` in the finishing order
      have hunvisited : ∀ v, v ∈ g.vertices → t.visited v = false → v ∈ rest.reverse ++ [r] := by
        intro v hv hvn
        rw [← hmem, hsplit] at hv
        rcases List.mem_append.mp hv with hv | hv
        · simp [List.mem_reverse.mp hv]
        rcases List.mem_cons.mp hv with rfl | hv
        · simp
        · rw [hseen v (List.mem_reverse.mp hv)] at hvn
          cases hvn
      have hback : ∀ x, t.visited x = false → g.Reaches r x → g.Reaches x r := by
        intro x hx hrx
        have hxv : x ∈ g.vertices := hg.mem_vertices_of_reaches hrl hrx
        rw [← reaches_reverse_iff]
        exact hlaw.reaches_last hnodup hsplit (hunvisited x hxv hx)
          (h.settled.reflTransGen_of_reaches hunvisited hg hrl hx hrx)
      have he := h.settled.next.explore hg hrl hn
      apply ih (h.explore hg hrl hn hback) hl'
      intro v hv
      rw [he.visited_iff]
      rcases List.mem_append.mp hv with hv | hv
      · exact .inl (hseen v hv)
      · rw [List.mem_singleton] at hv
        exact .inr (hv ▸ .refl)

/-- The components are numbered: every vertex has the number of its component. -/
lemma components_numbered (hg : g.Closed) :
    g.Numbered g.components ∧ ∀ v, g.components.visited v = true ↔ v ∈ g.vertices := by
  -- the finishing order is the one of the graph with its edges turned around
  obtain ⟨hs, hfin⟩ := settled_depthFirst hg.reverse
  have hmem : ∀ v, v ∈ g.reverse.depthFirst.finished ↔ v ∈ g.vertices := by
    intro v
    rw [hfin, vertices_reverse hg]
  have hnodup : g.reverse.depthFirst.finished.Nodup := by
    simpa using hs.nodup
  have hnum := numbered_start.exploreAll hg hs.law hnodup hmem (List.nil_append _).symm (by simp)
  obtain ⟨-, hall⟩ := (settled_start (g := g)).exploreAll hg
    (l := g.reverse.depthFirst.finished.reverse) fun v hv => (hmem v).mp (List.mem_reverse.mp hv)
  refine ⟨hnum, ?_⟩
  intro v
  constructor
  · exact hnum.settled.mem_vertices v
  · intro hv
    exact hall v (.inr (List.mem_reverse.mpr ((hmem v).mpr hv)))

end Graph

namespace Explored

variable {α : Type} [DecidableEq α]

/-- Whatever an earlier traversal has left behind, the components of a graph are numbered from one on
without a gap. Two vertices have the same number exactly if they reach each other, numbers go down
along the edges, and the stack holds every vertex once with numbers that go up towards its top. -/
theorem components_correct (e : Explored α) (h : e.graph.Built) :
    let numbers := e.components.2
    e.components.1.graph = e.graph ∧
    numbers.keys.Perm e.graph.vertices ∧
    (∃ k, ∀ i, i ∈ numbers.values ↔ 1 ≤ i ∧ i ≤ k) ∧
    (∀ u ∈ e.graph.vertices, ∀ w ∈ e.graph.vertices,
      numbers.find? u = numbers.find? w ↔ e.graph.Reaches u w ∧ e.graph.Reaches w u) ∧
    (∀ u, ∀ w ∈ e.graph.neighbors u, ∃ i j,
      numbers.find? u = some i ∧ numbers.find? w = some j ∧ j ≤ i) ∧
    e.components.1.stack.Perm e.graph.vertices ∧
    e.components.1.stack.Pairwise fun u w => ∃ i j,
      numbers.find? u = some i ∧ numbers.find? w = some j ∧ i ≤ j := by
  obtain ⟨hnum, hvis⟩ := Graph.components_numbered h.closed
  -- the numbering starts anew, so that it is the one of a graph never explored
  have hlabels : e.components.2 = e.graph.components.labels := rfl
  have hstack : e.components.1.stack = e.graph.components.finished := rfl
  rw [hlabels, hstack]
  generalize e.graph.components = t at hnum hvis
  have hnumber : ∀ v ∈ e.graph.vertices, ∃ i, t.labels.find? v = some i := fun v hv =>
    Traversal.visited_iff.mp ((hvis v).mpr hv)
  have hmem : ∀ v, v ∈ t.finished ↔ v ∈ e.graph.vertices := by
    intro v
    rw [← hnum.settled.visited_iff_mem, hvis]
  refine ⟨rfl, ?_, ⟨t.counter, ?_⟩, ?_, ?_, ?_, ?_⟩
  · refine (List.perm_ext_iff_of_nodup t.labels.nodup e.graph.nodup_vertices).mpr ?_
    intro v
    rw [← hvis]
    exact OrderedMap.contains_iff.symm
  · intro i
    rw [← hnum.number_iff, OrderedMap.mem_values_iff]
  · intro u hu w hw
    obtain ⟨i, hi⟩ := hnumber u hu
    obtain ⟨j, hj⟩ := hnumber w hw
    rw [hi, hj, Option.some_inj]
    exact hnum.eq_iff u w i j hi hj
  · intro u w huw
    have hw : w ∈ e.graph.vertices := h.closed u w huw
    have hu : u ∈ e.graph.vertices := by
      by_cases hu : u ∈ e.graph.vertices
      · exact hu
      · rw [Graph.neighbors_eq_nil hu] at huw
        cases huw
    obtain ⟨i, hi⟩ := hnumber u hu
    obtain ⟨j, hj⟩ := hnumber w hw
    exact ⟨i, j, hi, hj, hnum.le_of_arc u w i j huw hi hj⟩
  · have hnodup : t.finished.Nodup := by
      simpa using hnum.settled.nodup
    exact (List.perm_ext_iff_of_nodup hnodup e.graph.nodup_vertices).mpr hmem
  · refine List.Pairwise.imp_of_mem ?_ hnum.sorted
    intro u w hu hw hle
    obtain ⟨i, hi⟩ := hnumber u ((hmem u).mp hu)
    obtain ⟨j, hj⟩ := hnumber w ((hmem w).mp hw)
    exact ⟨i, j, hi, hj, hle i j hi hj⟩

/-- A cycle of two vertices with an edge to a third one, explored from the second already. -/
def cycleWithExit : Explored Nat :=
  (explore (fresh ((((Graph.empty true).addEdge 1 2).addEdge 2 1).addEdge 2 3)) 2).1

/-- In the example the vertices of the cycle have the same number, which is not the one of the third
vertex. -/
theorem components_correct_cycleWithExit :
    cycleWithExit.graph.Built ∧
    cycleWithExit.components.2.find? 1 = cycleWithExit.components.2.find? 2 ∧
    cycleWithExit.components.2.find? 3 ≠ cycleWithExit.components.2.find? 1 := by
  have hb : cycleWithExit.graph.Built := .addEdge 2 3 (.addEdge 2 1 (.addEdge 1 2 (.empty true)))
  obtain ⟨-, -, -, heq, -⟩ := components_correct cycleWithExit hb
  have h₁₂ : cycleWithExit.graph.Reaches 1 2 :=
    .single (show 2 ∈ cycleWithExit.graph.neighbors 1 by decide)
  have h₂₁ : cycleWithExit.graph.Reaches 2 1 :=
    .single (show 1 ∈ cycleWithExit.graph.neighbors 2 by decide)
  refine ⟨hb, (heq 1 (by decide) 2 (by decide)).mpr ⟨h₁₂, h₂₁⟩, ?_⟩
  intro hn
  obtain ⟨h₃₁, -⟩ := (heq 3 (by decide) 1 (by decide)).mp hn
  have hnone : cycleWithExit.graph.neighbors 3 = [] := by decide
  rcases Relation.ReflTransGen.cases_head h₃₁ with h | ⟨w, hw, -⟩
  · cases h
  · rw [hnone] at hw
    cases hw

end Explored

end Clausal
