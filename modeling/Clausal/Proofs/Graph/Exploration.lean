import Clausal.Graph.Traversal
import Clausal.Proofs.Graph.Adjacency

/-!
# Depth-first exploration

The invariant of the stack of frames, and what exploring does to a traversal. A traversal is settled
if no frame is pending. Main statements: an exploration from a vertex visits what the vertex reaches
and gives it the present number (`Settled.explore`), and at the end every destination of a finished
vertex is finished before it or reaches it back (`FinishingLaw`, kept by `Searching.walk`).
-/

namespace Clausal

/-- The visited vertices are those that have a number. -/
lemma Traversal.visited_iff {α : Type} [DecidableEq α] {t : Traversal α} {v : α} :
    t.visited v = true ↔ ∃ i, t.labels.find? v = some i := by
  simp [visited, OrderedMap.contains, Option.isSome_iff_exists]

/-- Labelling a vertex gives it the present number, and the others keep theirs. -/
lemma Traversal.find?_label {α : Type} [DecidableEq α] {t : Traversal α} {v w : α} :
    (t.label v).labels.find? w = if w = v then some t.counter else t.labels.find? w :=
  OrderedMap.find?_insert _ _ _ _

/-- A vertex that was labelled is visited. -/
lemma Traversal.visited_label_self {α : Type} [DecidableEq α] {t : Traversal α} {v : α} :
    (t.label v).visited v = true := by
  simp [visited_label]

/-- What is visited stays so when another vertex is labelled. -/
lemma Traversal.visited_label_of_visited {α : Type} [DecidableEq α] {t : Traversal α} {v w : α}
    (h : t.visited w = true) : (t.label v).visited w = true := by
  simp [visited_label, h]

/-- Finishing a vertex does not change which ones are visited. -/
@[simp]
lemma Traversal.visited_finish {α : Type} [DecidableEq α] (t : Traversal α) (v w : α) :
    (t.finish v).visited w = t.visited w := rfl

/-- Going on to the next number does not change which vertices are visited. -/
@[simp]
lemma Traversal.visited_next {α : Type} [DecidableEq α] (t : Traversal α) (w : α) :
    t.next.visited w = t.visited w := rfl

namespace Graph

variable {α : Type} [DecidableEq α] {g : Graph α}

/-! ### The invariant of the stack -/

/-- At the time a vertex is finished, the destinations of what is finished are finished too, or they
reach that vertex. -/
def FinishingLaw (g : Graph α) (l : List α) : Prop :=
  ∀ l₁ v l₂, l = l₁ ++ v :: l₂ →
    ∀ u ∈ l₁ ++ [v], ∀ w ∈ g.neighbors u, w ∈ l₁ ++ [v] ∨ g.Reaches w v

/-- The law for one more vertex at the end is a matter of the last vertex only. -/
lemma FinishingLaw.concat {l : List α} {v : α} (h : g.FinishingLaw l)
    (hv : ∀ u ∈ l ++ [v], ∀ w ∈ g.neighbors u, w ∈ l ++ [v] ∨ g.Reaches w v) :
    g.FinishingLaw (l ++ [v]) := by
  intro l₁ x l₂ hl
  rcases List.eq_nil_or_concat l₂ with rfl | ⟨l₃, y, rfl⟩
  · obtain ⟨rfl, hx⟩ := List.append_inj' hl rfl
    cases hx
    exact hv
  · rw [List.concat_eq_append, ← List.cons_append, ← List.append_assoc] at hl
    obtain ⟨rfl, -⟩ := List.append_inj' hl rfl
    exact h l₁ x l₃ rfl

/-- The state of a search whose stack holds the given frames. The vertices of the frames are visited
but not finished, each of them reaches those above it, and every destination of a finished vertex is
visited. -/
structure Searching (g : Graph α) (t : Traversal α) (work : List (Frame α)) : Prop where
  visited_iff : ∀ v, t.visited v = true ↔ v ∈ t.finished ∨ v ∈ work.map Prod.fst
  nodup : (t.finished ++ work.map Prod.fst).Nodup
  mem_vertices : ∀ v, t.visited v = true → v ∈ g.vertices
  mem_neighbors : ∀ f ∈ work, ∀ w ∈ f.2, w ∈ g.neighbors f.1
  chain : work.Pairwise fun f f' => g.Reaches f'.1 f.1
  visited_of_finished : ∀ v ∈ t.finished, ∀ w ∈ g.neighbors v, t.visited w = true
  law : g.FinishingLaw t.finished

/-- The destinations of a frame that are no longer to be looked at are visited. -/
def Looked (g : Graph α) (t : Traversal α) (work : List (Frame α)) : Prop :=
  ∀ f ∈ work, ∀ w ∈ g.neighbors f.1, w ∈ f.2 ∨ t.visited w = true

/-- Taking a destination off the top frame keeps the state of the search. -/
lemma Searching.shrink {t : Traversal α} {v d : α} {dests : List α} {work : List (Frame α)}
    (h : g.Searching t ((v, d :: dests) :: work)) : g.Searching t ((v, dests) :: work) where
  visited_iff := h.visited_iff
  nodup := h.nodup
  mem_vertices := h.mem_vertices
  mem_neighbors := by
    intro f hf w hw
    rcases List.mem_cons.mp hf with rfl | hf
    · exact h.mem_neighbors (v, d :: dests) (by simp) w (by simp [hw])
    · exact h.mem_neighbors f (by simp [hf]) w hw
  chain := by
    have hc := List.pairwise_cons.mp h.chain
    exact List.pairwise_cons.mpr ⟨hc.1, hc.2⟩
  visited_of_finished := h.visited_of_finished
  law := h.law

/-- Labelling an unvisited vertex that all vertices on the stack reach, and putting it on top, keeps
the state of the search. -/
lemma Searching.enter {t : Traversal α} {d : α} {work : List (Frame α)} (h : g.Searching t work)
    (hd : t.visited d = false) (hv : d ∈ g.vertices) (hr : ∀ f ∈ work, g.Reaches f.1 d) :
    g.Searching (t.label d) ((d, g.neighbors d) :: work) where
  visited_iff := by
    intro v
    rw [Traversal.visited_label, Bool.or_eq_true, decide_eq_true_iff, h.visited_iff]
    simp only [Traversal.label, List.map_cons, List.mem_cons]
    exact or_left_comm
  nodup := by
    have hnot : d ∉ t.finished ++ work.map Prod.fst := by
      rw [List.mem_append, ← h.visited_iff, hd]
      exact Bool.false_ne_true
    exact (List.perm_middle.nodup_iff).mpr (List.nodup_cons.mpr ⟨hnot, h.nodup⟩)
  mem_vertices := by
    intro v hvis
    rw [Traversal.visited_label, Bool.or_eq_true, decide_eq_true_iff] at hvis
    rcases hvis with rfl | hvis
    · exact hv
    · exact h.mem_vertices v hvis
  mem_neighbors := List.forall_mem_cons.mpr ⟨fun _ hw => hw, h.mem_neighbors⟩
  chain := List.pairwise_cons.mpr ⟨hr, h.chain⟩
  visited_of_finished := by
    intro v hf w hw
    exact Traversal.visited_label_of_visited (h.visited_of_finished v hf w hw)
  law := h.law

/-- The destinations of a vertex with nothing left to look at are visited, like those of the finished
vertices. -/
lemma Searching.visited_of_concat {t : Traversal α} {v : α} {work : List (Frame α)}
    (h : g.Searching t ((v, []) :: work)) (hl : g.Looked t ((v, []) :: work)) :
    ∀ u ∈ t.finished ++ [v], ∀ w ∈ g.neighbors u, t.visited w = true := by
  intro u hu w hw
  rcases List.mem_append.mp hu with hu | hu
  · exact h.visited_of_finished u hu w hw
  · rw [List.mem_singleton] at hu
    subst hu
    simpa using hl (u, []) (by simp) w hw

/-- Finishing the vertex of a frame with nothing left to look at keeps the state of the search. -/
lemma Searching.finish {t : Traversal α} {v : α} {work : List (Frame α)}
    (h : g.Searching t ((v, []) :: work)) (hl : g.Looked t ((v, []) :: work)) :
    g.Searching (t.finish v) work where
  visited_iff := by
    intro u
    rw [Traversal.visited_finish, h.visited_iff]
    simp [Traversal.finish, or_assoc]
  nodup := by
    have hn := h.nodup
    simp only [Traversal.finish, List.append_assoc]
    exact hn
  mem_vertices := h.mem_vertices
  mem_neighbors := (List.forall_mem_cons.mp h.mem_neighbors).2
  chain := (List.pairwise_cons.mp h.chain).2
  visited_of_finished := h.visited_of_concat hl
  law := by
    apply h.law.concat
    intro u hu w hw
    -- a visited vertex that is not finished is on the stack, so it reaches the top
    rcases (h.visited_iff w).mp (h.visited_of_concat hl u hu w hw) with hw | hw
    · exact .inl (by simp [hw])
    obtain ⟨f, hf, rfl⟩ := List.mem_map.mp hw
    rcases List.mem_cons.mp hf with rfl | hf
    · exact .inl (by simp)
    · exact .inr ((List.pairwise_cons.mp h.chain).1 f hf)

/-- A destination that is visited already need not be looked at. -/
lemma Looked.skip {t : Traversal α} {v d : α} {dests : List α} {work : List (Frame α)}
    (h : g.Looked t ((v, d :: dests) :: work)) (hd : t.visited d = true) :
    g.Looked t ((v, dests) :: work) := by
  obtain ⟨htop, hrest⟩ := List.forall_mem_cons.mp h
  refine List.forall_mem_cons.mpr ⟨?_, hrest⟩
  intro w hw
  rcases htop w hw with hw | hw
  · rcases List.mem_cons.mp hw with rfl | hw
    · exact .inr hd
    · exact .inl hw
  · exact .inr hw

/-- Labelling a vertex and putting it on top leaves all its destinations to be looked at. -/
lemma Looked.enter {t : Traversal α} {d : α} {work : List (Frame α)} (h : g.Looked t work) :
    g.Looked (t.label d) ((d, g.neighbors d) :: work) := by
  refine List.forall_mem_cons.mpr ⟨fun _ hw => .inl hw, ?_⟩
  intro f hf w hw
  exact (h f hf w hw).imp_right Traversal.visited_label_of_visited

/-- Working off the stack keeps the state of the search until no frame is left. -/
lemma Searching.walk (hg : g.Closed) {t : Traversal α} {work : List (Frame α)}
    (h : g.Searching t work) (hl : g.Looked t work) : g.Searching (g.walk t work) [] := by
  fun_induction Graph.walk g t work with
  | case1 t => exact h
  | case2 t v work ih =>
    exact ih (h.finish hl) (List.forall_mem_cons.mp hl).2
  | case3 t v d dests work hd ih => exact ih h.shrink (hl.skip hd)
  | case4 t v d dests work hd ih =>
    have hvd : d ∈ g.neighbors v := h.mem_neighbors (v, d :: dests) (by simp) d (by simp)
    have hreach : ∀ f ∈ (v, dests) :: work, g.Reaches f.1 d := by
      refine List.forall_mem_cons.mpr ⟨.single hvd, ?_⟩
      intro f hf
      exact .tail ((List.pairwise_cons.mp h.chain).1 f hf) hvd
    have hl' : g.Looked (t.label d) ((v, d :: dests) :: work) := by
      intro f hf w hw
      exact (hl f hf w hw).imp_right Traversal.visited_label_of_visited
    apply ih
    · exact h.shrink.enter (by simpa using hd) (hg v d hvd) hreach
    · exact List.forall_mem_cons.mpr ⟨fun _ hw => .inl hw, hl'.skip Traversal.visited_label_self⟩

/-! ### What is new after working off a stack -/

/-- How a traversal has grown by working off a stack: what is new has the present number and was
reached from the destinations of the frames. -/
structure Grown (g : Graph α) (t : Traversal α) (work : List (Frame α)) (t' : Traversal α) :
    Prop where
  counter_eq : t'.counter = t.counter
  find?_eq : ∀ v, t.visited v = true → t'.labels.find? v = t.labels.find? v
  find?_new : ∀ v, t'.visited v = true → t.visited v = false →
    t'.labels.find? v = some t.counter ∧ ∃ f ∈ work, ∃ d ∈ f.2, g.Reaches d v
  finished_eq : ∃ l, t'.finished = t.finished ++ l

/-- Working off a stack makes a traversal grow. -/
lemma grown_walk (t : Traversal α) (work : List (Frame α)) :
    g.Grown t work (g.walk t work) := by
  fun_induction Graph.walk g t work with
  | case1 t =>
    refine ⟨rfl, fun _ _ => rfl, ?_, [], by simp⟩
    intro v hv hn
    rw [hv] at hn
    cases hn
  | case2 t v work ih =>
    obtain ⟨l, hl⟩ := ih.finished_eq
    refine ⟨ih.counter_eq, ih.find?_eq, ?_, v :: l, ?_⟩
    · intro w hw hn
      obtain ⟨hc, f, hf, hd⟩ := ih.find?_new w hw hn
      exact ⟨hc, f, by simp [hf], hd⟩
    · rw [hl]
      simp [Traversal.finish]
  | case3 t v d dests work hd ih =>
    refine ⟨ih.counter_eq, ih.find?_eq, ?_, ih.finished_eq⟩
    intro w hw hn
    obtain ⟨hc, f, hf, d', hd', hr⟩ := ih.find?_new w hw hn
    rcases List.mem_cons.mp hf with rfl | hf
    · exact ⟨hc, (v, d :: dests), by simp, d', by simp [hd'], hr⟩
    · exact ⟨hc, f, by simp [hf], d', hd', hr⟩
  | case4 t v d dests work hd ih =>
    have hlabel : (g.walk (t.label d) ((d, g.neighbors d) :: (v, dests) :: work)).labels.find? d =
        some t.counter := by
      rw [ih.find?_eq d Traversal.visited_label_self, Traversal.find?_label, if_pos rfl]
    refine ⟨ih.counter_eq, ?_, ?_, ih.finished_eq⟩
    · intro w hw
      have hne : w ≠ d := by
        rintro rfl
        exact hd hw
      rw [ih.find?_eq w (Traversal.visited_label_of_visited hw), Traversal.find?_label, if_neg hne]
    · intro w hw hn
      by_cases hwd : w = d
      · subst hwd
        exact ⟨hlabel, (v, w :: dests), by simp, w, by simp, .refl⟩
      · have hn' : (t.label d).visited w = false := by
          simp [Traversal.visited_label, hwd, hn]
        obtain ⟨hc, f, hf, d', hd', hr⟩ := ih.find?_new w hw hn'
        refine ⟨hc, ?_⟩
        rcases List.mem_cons.mp hf with rfl | hf
        · exact ⟨(v, d :: dests), by simp, d, by simp, .head hd' hr⟩
        rcases List.mem_cons.mp hf with rfl | hf
        · exact ⟨(v, d :: dests), by simp, d', by simp [hd'], hr⟩
        · exact ⟨f, by simp [hf], d', hd', hr⟩

/-! ### Exploring from a vertex -/

/-- A traversal with nothing pending. -/
def Settled (g : Graph α) (t : Traversal α) : Prop := g.Searching t []

/-- Nothing is pending before anything is visited. -/
lemma settled_start : g.Settled .start where
  visited_iff := by
    intro v
    simp [Traversal.visited, Traversal.start, OrderedMap.contains]
  nodup := List.nodup_nil
  mem_vertices := by
    intro v hv
    simp [Traversal.visited, Traversal.start, OrderedMap.contains] at hv
  mem_neighbors := by simp
  chain := .nil
  visited_of_finished := by simp [Traversal.start]
  law := by
    intro l₁ v l₂ h
    simp [Traversal.start] at h

/-- Going on to the next number leaves nothing pending. -/
lemma Settled.next {t : Traversal α} (h : g.Settled t) : g.Settled t.next :=
  ⟨h.visited_iff, h.nodup, h.mem_vertices, h.mem_neighbors, h.chain, h.visited_of_finished, h.law⟩

/-- When nothing is pending, the visited vertices are those that are finished. -/
lemma Settled.visited_iff_mem {t : Traversal α} (h : g.Settled t) {v : α} :
    t.visited v = true ↔ v ∈ t.finished := by
  simpa using h.visited_iff v

/-- When nothing is pending, all that a visited vertex reaches is visited. -/
lemma Settled.visited_of_reaches {t : Traversal α} (h : g.Settled t) {u w : α}
    (hu : t.visited u = true) (hr : g.Reaches u w) : t.visited w = true := by
  induction hr with
  | refl => exact hu
  | tail _ hw ih => exact h.visited_of_finished _ (h.visited_iff_mem.mp ih) _ hw

/-- What exploring from an unvisited vertex does to a traversal. -/
structure Explores (g : Graph α) (t : Traversal α) (v : α) (t' : Traversal α) : Prop where
  settled : g.Settled t'
  counter_eq : t'.counter = t.counter
  visited_iff : ∀ u, t'.visited u = true ↔ t.visited u = true ∨ g.Reaches v u
  find?_old : ∀ u, t.visited u = true → t'.labels.find? u = t.labels.find? u
  find?_new : ∀ u, t.visited u = false → g.Reaches v u → t'.labels.find? u = some t.counter
  finished_eq : ∃ l, t'.finished = t.finished ++ l ∧ ∀ u ∈ l, t.visited u = false

/-- Exploring from an unvisited vertex visits what it reaches and numbers the new vertices with the
present number. -/
lemma Settled.explore (hg : g.Closed) {t : Traversal α} {v : α} (h : g.Settled t)
    (hv : v ∈ g.vertices) (hn : t.visited v = false) : g.Explores t v (g.explore t v) := by
  have hs : g.Settled (g.explore t v) :=
    (Searching.enter h hn hv (by simp)).walk hg (Looked.enter (by simp [Looked]))
  have hgrown := grown_walk (g := g) (t.label v) [(v, g.neighbors v)]
  -- the start is labelled before the walk, which leaves its number as it is
  have hself : (g.explore t v).labels.find? v = some t.counter := by
    have hlabel := hgrown.find?_eq v Traversal.visited_label_self
    rwa [Traversal.find?_label, if_pos rfl] at hlabel
  have hold : ∀ u, t.visited u = true → (g.explore t v).labels.find? u = t.labels.find? u := by
    intro u hu
    have hne : u ≠ v := by
      rintro rfl
      rw [hu] at hn
      cases hn
    have hlabel := hgrown.find?_eq u (Traversal.visited_label_of_visited hu)
    rwa [Traversal.find?_label, if_neg hne] at hlabel
  have hnew : ∀ u, (g.explore t v).visited u = true → t.visited u = false →
      (g.explore t v).labels.find? u = some t.counter ∧ g.Reaches v u := by
    intro u hu hun
    by_cases huv : u = v
    · subst huv
      exact ⟨hself, .refl⟩
    · have hun' : (t.label v).visited u = false := by
        simp [Traversal.visited_label, huv, hun]
      obtain ⟨hc, f, hf, d, hd, hr⟩ := hgrown.find?_new u hu hun'
      rw [List.mem_singleton] at hf
      subst hf
      exact ⟨hc, .head hd hr⟩
  have hvis : (g.explore t v).visited v = true := Traversal.visited_iff.mpr ⟨_, hself⟩
  have hiff : ∀ u, (g.explore t v).visited u = true ↔ t.visited u = true ∨ g.Reaches v u := by
    intro u
    constructor
    · intro hu
      cases hun : t.visited u with
      | true => exact .inl rfl
      | false => exact .inr (hnew u hu hun).2
    · rintro (hu | hr)
      · obtain ⟨i, hi⟩ := Traversal.visited_iff.mp hu
        exact Traversal.visited_iff.mpr ⟨i, (hold u hu).trans hi⟩
      · exact hs.visited_of_reaches hvis hr
  refine ⟨hs, hgrown.counter_eq, hiff, hold, ?_, ?_⟩
  · intro u hun hr
    exact (hnew u ((hiff u).mpr (.inr hr)) hun).1
  · obtain ⟨l, hl⟩ := hgrown.finished_eq
    refine ⟨l, hl, ?_⟩
    intro u hu
    cases hun : t.visited u with
    | false => rfl
    | true =>
      -- a vertex that was visited is finished already, and none is finished twice
      have hnodup := hs.nodup
      rw [List.map_nil, List.append_nil, show (g.explore t v).finished = t.finished ++ l from hl]
        at hnodup
      have hf : u ∈ t.finished := h.visited_iff_mem.mp hun
      exact absurd rfl ((List.nodup_append.mp hnodup).2.2 u hf u hu)

/-- Exploring under a new number gives this number to the vertices that are reached and not yet
visited, and the others keep theirs. -/
lemma Explores.find?_cases {t t' : Traversal α} {r v : α} {i : Nat}
    (he : g.Explores t.next r t') (hi : t'.labels.find? v = some i) :
    (t.visited v = true ∧ t.labels.find? v = some i) ∨
      (t.visited v = false ∧ i = t.counter + 1 ∧ g.Reaches r v) := by
  cases hv : t.visited v with
  | true => exact .inl ⟨rfl, (he.find?_old v hv).symm.trans hi⟩
  | false =>
    have hrv : g.Reaches r v := by
      rcases (he.visited_iff v).mp (Traversal.visited_iff.mpr ⟨i, hi⟩) with hv' | hrv
      · rw [Traversal.visited_next, hv] at hv'
        cases hv'
      · exact hrv
    have hnew : t'.labels.find? v = some (t.counter + 1) := he.find?_new v hv hrv
    rw [hi] at hnew
    exact .inr ⟨rfl, Option.some.inj hnew, hrv⟩

/-- Exploring from listed vertices leaves nothing pending, and all that was visited and all listed
vertices are visited in the end. -/
lemma Settled.exploreAll (hg : g.Closed) {t : Traversal α} {l : List α} (h : g.Settled t)
    (hl : ∀ v ∈ l, v ∈ g.vertices) :
    g.Settled (g.exploreAll t l) ∧
      ∀ u, t.visited u = true ∨ u ∈ l → (g.exploreAll t l).visited u = true := by
  induction l generalizing t with
  | nil => exact ⟨h, by simp [Graph.exploreAll]⟩
  | cons v rest ih =>
    obtain ⟨hv, hrest⟩ := List.forall_mem_cons.mp hl
    simp only [Graph.exploreAll]
    split
    · next hvis =>
      obtain ⟨hs, hall⟩ := ih h hrest
      refine ⟨hs, ?_⟩
      rintro u (hu | hu)
      · exact hall u (.inl hu)
      rcases List.mem_cons.mp hu with rfl | hu
      · exact hall u (.inl hvis)
      · exact hall u (.inr hu)
    · next hn =>
      have he := h.next.explore hg hv (by simpa using hn)
      obtain ⟨hs, hall⟩ := ih he.settled hrest
      refine ⟨hs, ?_⟩
      rintro u (hu | hu)
      · exact hall u (.inl ((he.visited_iff u).mpr (.inl hu)))
      rcases List.mem_cons.mp hu with rfl | hu
      · exact hall u (.inl ((he.visited_iff u).mpr (.inr .refl)))
      · exact hall u (.inr hu)

/-- A search of the whole graph leaves nothing pending and finishes every vertex. -/
lemma settled_depthFirst (hg : g.Closed) :
    g.Settled g.depthFirst ∧ ∀ v, v ∈ g.depthFirst.finished ↔ v ∈ g.vertices := by
  obtain ⟨hs, hall⟩ := (settled_start (g := g)).exploreAll hg fun v hv => hv
  refine ⟨hs, ?_⟩
  intro v
  constructor
  · intro hv
    exact hs.mem_vertices v (hs.visited_iff_mem.mpr hv)
  · intro hv
    exact hs.visited_iff_mem.mp (hall v (.inr hv))

end Graph

end Clausal
