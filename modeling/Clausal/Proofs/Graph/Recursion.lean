import Clausal.Proofs.Graph.Exploration
import Mathlib.Data.Finset.Basic

/-!
# Recursive search

Depth-first search as a recursion: a vertex is entered, then those of its destinations that are not
seen yet are visited one after the other, and then it is left. The state of a search has the set of
the vertices seen beside their numbers, and a search may begin in any state. Main statements: working
off a stack of frames is the recursive search from the top frame, followed by the rest of the stack
(`walk_cons_eq`); the recursive search enters and leaves once each the vertices that are reached
through unseen ones (`exists_adds_visitAll`, `exists_adds_visit`); and both together for the
exploration from a vertex (`explore_recursive`).
-/

namespace Clausal

/-- How far a search has come, with the set of the vertices that were seen. They need not be the
vertices with a number. -/
structure Survey (α : Type) extends Traversal α where
  seen : Finset α

namespace Survey

variable {α : Type} [DecidableEq α]

/-- Marks a vertex as seen and gives it the present number. -/
def enter (s : Survey α) (v : α) : Survey α :=
  { toTraversal := s.toTraversal.label v, seen := insert v s.seen }

/-- Notes that a vertex is done with. -/
def leave (s : Survey α) (v : α) : Survey α :=
  { toTraversal := s.toTraversal.finish v, seen := s.seen }

/-- The vertices of the graph that were not seen. -/
def unseen (g : Graph α) (s : Survey α) : List α := g.vertices.filter (· ∉ s.seen)

/-- What was seen stays so when a vertex is entered. -/
lemma subset_seen_enter (s : Survey α) (v : α) : s.seen ⊆ (s.enter v).seen :=
  Finset.subset_insert v s.seen

/-- The more was seen, the fewer vertices are unseen. -/
lemma length_unseen_le {g : Graph α} {s s' : Survey α} (h : s.seen ⊆ s'.seen) :
    (unseen g s').length ≤ (unseen g s).length := by
  apply List.Sublist.length_le
  apply List.monotone_filter_right
  intro v hv
  rw [decide_eq_true_iff] at hv ⊢
  exact fun hs => hv (h hs)

/-- Entering an unseen vertex leaves fewer unseen ones. -/
lemma length_unseen_enter_lt {g : Graph α} {s : Survey α} {v : α} (hv : v ∈ g.vertices)
    (hn : v ∉ s.seen) : (unseen g (s.enter v)).length < (unseen g s).length := by
  have hfilter : unseen g (s.enter v) = (unseen g s).filter (· ≠ v) := by
    simp only [unseen, List.filter_filter]
    apply List.filter_congr
    intro w _
    simp [enter]
  rw [hfilter]
  apply List.length_filter_lt_length_iff_exists.mpr
  exact ⟨v, by simp [unseen, hv, hn], by simp⟩

/-- Entering an unseen vertex leaves fewer unseen vertices to look for, or it has no destinations. -/
lemma enter_lex {g : Graph α} {s : Survey α} {v : α} {j k : Nat} (hn : v ∉ s.seen)
    (hj : g.neighbors v = [] → j < k) :
    Prod.Lex (· < ·) (· < ·) ((unseen g (s.enter v)).length, j) ((unseen g s).length, k) := by
  by_cases hv : v ∈ g.vertices
  · exact Prod.Lex.left _ _ (length_unseen_enter_lt hv hn)
  · have hle := length_unseen_le (g := g) (s.subset_seen_enter v)
    exact Prod.Lex.right' _ hle (hj (Graph.neighbors_eq_nil hv))

/-! ### Two ways to search -/

/-- Works off a stack of frames, the top one first. -/
def walk (g : Graph α) (s : Survey α) : List (Graph.Frame α) → Survey α
  | [] => s
  | (v, []) :: work => walk g (s.leave v) work
  | (v, d :: dests) :: work =>
    if _hd : d ∈ s.seen then walk g s ((v, dests) :: work)
    else walk g (s.enter d) ((d, g.neighbors d) :: (v, dests) :: work)
termination_by work => ((unseen g s).length, 2 * Graph.remaining work + work.length)
decreasing_by
  · apply Prod.Lex.right
    simp [Graph.remaining]
  · apply Prod.Lex.right
    simp only [Graph.remaining, List.length_cons]
    omega
  · apply enter_lex _hd
    intro hnil
    simp only [hnil, Graph.remaining, List.length_cons, List.length_nil]
    omega

/-- Searches from a vertex with a stack of frames. -/
def explore (g : Graph α) (s : Survey α) (v : α) : Survey α :=
  walk g (s.enter v) [(v, g.neighbors v)]

/-- Visits those of the listed vertices that are not seen when their turn comes. What was seen before
is seen in the end. -/
def visitAll (g : Graph α) (s : Survey α) : List α → {s' : Survey α // s.seen ⊆ s'.seen}
  | [] => ⟨s, Finset.Subset.refl s.seen⟩
  | d :: dests =>
    if _hd : d ∈ s.seen then visitAll g s dests
    else
      let below := visitAll g (s.enter d) (g.neighbors d)
      let rest := visitAll g (below.1.leave d) dests
      ⟨rest.1, (s.subset_seen_enter d).trans (below.2.trans rest.2)⟩
termination_by dests => ((unseen g s).length, dests.length)
decreasing_by
  · exact Prod.Lex.right _ (Nat.lt_succ_self _)
  · apply enter_lex _hd
    intro hnil
    simp [hnil]
  · have hle := length_unseen_le (g := g) ((s.subset_seen_enter d).trans below.2)
    exact Prod.Lex.right' _ hle (Nat.lt_succ_self _)

/-- Visits a vertex: enters it, visits those of its destinations that are not seen yet, in their order,
and leaves it. -/
def visit (g : Graph α) (s : Survey α) (v : α) : Survey α :=
  (visitAll g (s.enter v) (g.neighbors v)).1.leave v

/-- Where there is nothing to visit, nothing is done. -/
lemma visitAll_nil (g : Graph α) (s : Survey α) : (visitAll g s []).1 = s := by
  rw [visitAll]

/-- Vertices that were seen are passed over, and the others visited. -/
lemma visitAll_cons (g : Graph α) (s : Survey α) (d : α) (dests : List α) :
    (visitAll g s (d :: dests)).1 =
      if d ∈ s.seen then (visitAll g s dests).1 else (visitAll g (visit g s d) dests).1 := by
  rw [visitAll]
  split
  · rfl
  · rfl

/-- Working off a stack is the recursive search from the destinations of the top frame, after which its
vertex is left, followed by the rest of the stack. -/
lemma walk_cons_eq (g : Graph α) (s : Survey α) (v : α) (dests : List α)
    (work : List (Graph.Frame α)) :
    walk g s ((v, dests) :: work) = walk g ((visitAll g s dests).1.leave v) work := by
  induction s, dests using visitAll.induct g generalizing v work with
  | case1 s => rw [walk, visitAll_nil]
  | case2 s d dests hd ih => rw [walk, dif_pos hd, ih, visitAll_cons, if_pos hd]
  | case3 s d dests hd below ih₁ ih₂ =>
    rw [walk, dif_neg hd, ih₁, ih₂, visitAll_cons, if_neg hd]
    rfl

/-- Searching with a stack comes to the same as searching recursively. -/
lemma explore_eq_visit (g : Graph α) (s : Survey α) (v : α) : s.explore g v = s.visit g v := by
  rw [explore, walk_cons_eq, walk]
  rfl

/-! ### What a recursive search visits -/

/-- The second state is the first one after the listed vertices were entered and left, once each and
under the same number. -/
structure Adds (s : Survey α) (l : List α) (s' : Survey α) : Prop where
  counter_eq : s'.counter = s.counter
  finished_eq : s'.finished = s.finished ++ l
  nodup : l.Nodup
  mem_seen_iff : ∀ u, u ∈ s'.seen ↔ u ∈ s.seen ∨ u ∈ l
  find?_eq : ∀ u, s'.labels.find? u = if u ∈ l then some s.counter else s.labels.find? u

/-- A search that goes no further adds nothing. -/
lemma Adds.refl (s : Survey α) : s.Adds [] s where
  counter_eq := rfl
  finished_eq := by simp
  nodup := List.nodup_nil
  mem_seen_iff := by simp
  find?_eq := by simp

/-- What two searches add one after the other is added by both together. -/
lemma Adds.trans {s s' s'' : Survey α} {l l' : List α} (h : s.Adds l s') (h' : s'.Adds l' s'')
    (hdisjoint : ∀ u ∈ l', u ∉ l) : s.Adds (l ++ l') s'' where
  counter_eq := h'.counter_eq.trans h.counter_eq
  finished_eq := by rw [h'.finished_eq, h.finished_eq, List.append_assoc]
  nodup := by
    refine List.nodup_append.mpr ⟨h.nodup, h'.nodup, ?_⟩
    rintro u hu w hw rfl
    exact hdisjoint u hw hu
  mem_seen_iff := by
    intro u
    rw [h'.mem_seen_iff, h.mem_seen_iff, List.mem_append, or_assoc]
  find?_eq := by
    intro u
    rw [h'.find?_eq, h.find?_eq, h.counter_eq]
    by_cases hu : u ∈ l'
    · simp [hu]
    · simp [hu]

/-- What is added between entering a vertex and leaving it is added before the vertex. -/
lemma Adds.enclose {s s' : Survey α} {v : α} {l : List α} (h : (s.enter v).Adds l s')
    (hv : v ∉ l) : s.Adds (l ++ [v]) (s'.leave v) where
  counter_eq := h.counter_eq
  finished_eq := by
    show s'.finished ++ [v] = s.finished ++ (l ++ [v])
    rw [h.finished_eq, List.append_assoc]
    rfl
  nodup := by
    refine List.nodup_append.mpr ⟨h.nodup, List.nodup_singleton v, ?_⟩
    intro u hu w hw
    rw [List.mem_singleton] at hw
    rintro rfl
    exact hv (hw ▸ hu)
  mem_seen_iff := by
    intro u
    have hseen := h.mem_seen_iff u
    rw [enter, Finset.mem_insert] at hseen
    rw [leave, hseen, List.mem_append, List.mem_singleton]
    tauto
  find?_eq := by
    intro u
    have hfind := h.find?_eq u
    have hlabel : (s.enter v).labels.find? u = if u = v then some s.counter else s.labels.find? u :=
      Traversal.find?_label
    rw [hlabel] at hfind
    show s'.labels.find? u = _
    rw [hfind, show (s.enter v).counter = s.counter from rfl]
    by_cases hu : u ∈ l
    · simp [hu]
    · simp [hu]

end Survey

namespace Graph

variable {α : Type} [DecidableEq α] {g : Graph α}

/-- One vertex can be reached from another along edges that lead to none of the given vertices. -/
def ReachesAvoiding (g : Graph α) (seen : Finset α) : α → α → Prop :=
  Relation.ReflTransGen fun u w => w ∈ g.neighbors u ∧ w ∉ seen

/-- What is reached when more vertices are avoided is reached when fewer are. -/
lemma ReachesAvoiding.mono {seen seen' : Finset α} {u w : α} (h : seen ⊆ seen')
    (hr : g.ReachesAvoiding seen' u w) : g.ReachesAvoiding seen u w := by
  induction hr with
  | refl => exact .refl
  | tail _ hs ih => exact .tail ih ⟨hs.1, fun hc => hs.2 (h hc)⟩

/-- What is reached when vertices are avoided is reached. -/
lemma ReachesAvoiding.reaches {seen : Finset α} {u w : α} (hr : g.ReachesAvoiding seen u w) :
    g.Reaches u w := by
  induction hr with
  | refl => exact .refl
  | tail _ hs ih => exact .tail ih hs.1

/-- No vertex that is avoided is reached from one that is not. -/
lemma ReachesAvoiding.not_mem {seen : Finset α} {u w : α} (hr : g.ReachesAvoiding seen u w)
    (hu : u ∉ seen) : w ∉ seen := by
  cases hr with
  | refl => exact hu
  | tail _ hs => exact hs.2

/-- The listed vertices are those that are reached through unseen vertices, from those of the
destinations that are unseen. -/
def IsBeyond (g : Graph α) (seen : Finset α) (dests l : List α) : Prop :=
  ∀ u, u ∈ l ↔ ∃ d ∈ dests, d ∉ seen ∧ g.ReachesAvoiding seen d u

/-- None of the vertices beyond some destinations was seen. -/
lemma IsBeyond.not_mem {seen : Finset α} {dests l : List α} {u : α} (h : g.IsBeyond seen dests l)
    (hu : u ∈ l) : u ∉ seen := by
  obtain ⟨d, -, hd, hr⟩ := (h u).mp hu
  exact hr.not_mem hd

/-- What is beyond the destinations of a vertex that counts as seen, and the vertex itself, is what the
vertex reaches. -/
lemma IsBeyond.concat_iff {seen : Finset α} {v : α} {l : List α}
    (h : g.IsBeyond (insert v seen) (g.neighbors v) l) (u : α) :
    u ∈ l ++ [v] ↔ g.ReachesAvoiding seen v u := by
  rw [List.mem_append, List.mem_singleton]
  constructor
  · rintro (hu | rfl)
    · obtain ⟨d, hd, hn, hr⟩ := (h u).mp hu
      have hn' : d ∉ seen := fun hs => hn (Finset.mem_insert_of_mem hs)
      exact .head ⟨hd, hn'⟩ (hr.mono (Finset.subset_insert v seen))
    · exact .refl
  · intro hr
    induction hr with
    | refl => exact .inr rfl
    | @tail b c _ hs ih =>
      by_cases hc : c = v
      · exact .inr hc
      have hn : c ∉ insert v seen := by
        rw [Finset.mem_insert, not_or]
        exact ⟨hc, hs.2⟩
      refine .inl ((h c).mpr ?_)
      rcases ih with hb | rfl
      · obtain ⟨d, hd, hdn, hr⟩ := (h b).mp hb
        exact ⟨d, hd, hdn, .tail hr ⟨hs.1, hn⟩⟩
      · exact ⟨c, hs.1, hn, .refl⟩

/-- What is beyond the first destination, and then beyond the others, is what is beyond them all. -/
lemma IsBeyond.append {seen seen' : Finset α} {d : α} {dests l l' : List α} (hd : d ∉ seen)
    (hl : ∀ u, u ∈ l ↔ g.ReachesAvoiding seen d u) (hseen : ∀ u, u ∈ seen' ↔ u ∈ seen ∨ u ∈ l)
    (h : g.IsBeyond seen' dests l') : g.IsBeyond seen (d :: dests) (l ++ l') := by
  have hsub : seen ⊆ seen' := fun u hu => (hseen u).mpr (.inl hu)
  intro u
  rw [List.mem_append]
  constructor
  · rintro (hu | hu)
    · exact ⟨d, List.mem_cons_self, hd, (hl u).mp hu⟩
    · obtain ⟨e, he, hn, hr⟩ := (h u).mp hu
      exact ⟨e, List.mem_cons_of_mem d he, fun hs => hn (hsub hs), hr.mono hsub⟩
  · rintro ⟨e, he, hn, hr⟩
    rcases List.mem_cons.mp he with rfl | he
    · exact .inl ((hl u).mpr hr)
    -- the path is followed until it comes to what the first destination reaches, which it never
    -- leaves
    induction hr with
    | refl =>
      by_cases hel : e ∈ l
      · exact .inl hel
      · have hn' : e ∉ seen' := by simp [hseen, hn, hel]
        exact .inr ((h e).mpr ⟨e, he, hn', .refl⟩)
    | @tail b c _ hs ih =>
      by_cases hcl : c ∈ l
      · exact .inl hcl
      have hn' : c ∉ seen' := by simp [hseen, hs.2, hcl]
      rcases ih with hb | hb
      · exact .inl ((hl c).mpr (.tail ((hl b).mp hb) hs))
      · obtain ⟨e', he', hen, hr⟩ := (h b).mp hb
        exact .inr ((h c).mpr ⟨e', he', hen, .tail hr ⟨hs.1, hn'⟩⟩)

end Graph

namespace Survey

variable {α : Type} [DecidableEq α] {g : Graph α}

/-- Visiting a vertex adds what it reaches, if visiting its destinations adds what is beyond them. -/
lemma Adds.visit {s s' : Survey α} {v : α} {l : List α} (h : (s.enter v).Adds l s')
    (hl : g.IsBeyond (s.enter v).seen (g.neighbors v) l) :
    s.Adds (l ++ [v]) (s'.leave v) ∧ ∀ u, u ∈ l ++ [v] ↔ g.ReachesAvoiding s.seen v u := by
  refine ⟨h.enclose ?_, hl.concat_iff⟩
  intro hv
  exact hl.not_mem hv (Finset.mem_insert_self v s.seen)

/-- A recursive search from listed vertices adds what is beyond them. -/
lemma exists_adds_visitAll (s : Survey α) (dests : List α) :
    ∃ l, s.Adds l (visitAll g s dests).1 ∧ g.IsBeyond s.seen dests l := by
  induction s, dests using visitAll.induct g with
  | case1 s =>
    rw [visitAll_nil]
    exact ⟨[], .refl s, by simp [Graph.IsBeyond]⟩
  | case2 s d dests hd ih =>
    obtain ⟨l, h, hl⟩ := ih
    rw [visitAll_cons, if_pos hd]
    refine ⟨l, h, ?_⟩
    intro u
    simp [hl u, hd]
  | case3 s d dests hd below ih₁ ih₂ =>
    obtain ⟨l₁, h₁, hl₁⟩ := ih₁
    obtain ⟨l₂, h₂, hl₂⟩ := ih₂
    obtain ⟨hadds, hiff⟩ := h₁.visit hl₁
    rw [visitAll_cons, if_neg hd]
    refine ⟨(l₁ ++ [d]) ++ l₂, hadds.trans h₂ ?_, .append hd hiff hadds.mem_seen_iff hl₂⟩
    intro u hu hu'
    exact hl₂.not_mem hu ((hadds.mem_seen_iff u).mpr (.inr hu'))

/-- A recursive search from a vertex adds what the vertex reaches through unseen ones. -/
lemma exists_adds_visit (s : Survey α) (v : α) :
    ∃ l, s.Adds l (s.visit g v) ∧ ∀ u, u ∈ l ↔ g.ReachesAvoiding s.seen v u := by
  obtain ⟨l, h, hl⟩ := exists_adds_visitAll (g := g) (s.enter v) (g.neighbors v)
  exact ⟨_, h.visit hl⟩

/-! ### Vertices with a number count as seen -/

/-- The state of a search that has seen the vertices with a number. -/
def of (t : Traversal α) : Survey α := { toTraversal := t, seen := t.labels.keys.toFinset }

/-- Where the vertices with a number count as seen, these are the visited ones. -/
lemma mem_seen_of {t : Traversal α} {v : α} : v ∈ (of t).seen ↔ t.visited v = true := by
  rw [of, List.mem_toFinset, Traversal.visited, OrderedMap.contains_iff]

/-- Entering a vertex sees it and gives it a number, so that both stay in step. -/
lemma enter_of (t : Traversal α) (v : α) : (of t).enter v = of (t.label v) := by
  have hseen : insert v (of t).seen = (of (t.label v)).seen := by
    ext u
    rw [Finset.mem_insert, mem_seen_of, mem_seen_of, Traversal.visited_label]
    simp
  rw [enter, hseen]
  rfl

/-- Working off a stack keeps the vertices seen and those with a number in step. -/
lemma walk_of (t : Traversal α) (work : List (Graph.Frame α)) :
    walk g (of t) work = of (g.walk t work) := by
  fun_induction Graph.walk g t work with
  | case1 t => rw [walk]
  | case2 t v work ih => rw [walk, ← ih]; rfl
  | case3 t v d dests work hd ih => rw [walk, dif_pos (mem_seen_of.mpr hd), ih]
  | case4 t v d dests work hd ih =>
    rw [walk, dif_neg (fun h => hd (mem_seen_of.mp h)), enter_of, ih]

/-- Exploring from a vertex keeps the vertices seen and those with a number in step. -/
lemma explore_of (t : Traversal α) (v : α) : (of t).explore g v = of (g.explore t v) := by
  rw [explore, enter_of, walk_of]
  rfl

/-- Exploring from a vertex of a graph that was built, in any state of the search, is the recursive
search from the vertex. It sees and numbers, with the present number, and finishes once each, the
vertices that are reached from the start along edges to vertices that were unseen before; all of them
are vertices of the graph, and nothing else changes. If the vertices seen are those with a number,
they are so in the end. -/
theorem explore_recursive {v : α} (hg : g.Built) (hv : v ∈ g.vertices) (s : Survey α) :
    s.explore g v = s.visit g v ∧
    (∃ l, (s.explore g v).finished = s.finished ++ l ∧ l.Nodup ∧
      (∀ u, u ∈ l ↔
        Relation.ReflTransGen (fun u w => w ∈ g.neighbors u ∧ w ∉ s.seen) v u) ∧
      (∀ u ∈ l, u ∈ g.vertices) ∧
      (∀ u, u ∈ (s.explore g v).seen ↔ u ∈ s.seen ∨ u ∈ l) ∧
      (∀ u, (s.explore g v).labels.find? u =
        if u ∈ l then some s.counter else s.labels.find? u) ∧
      (s.explore g v).counter = s.counter) ∧
    ∀ t, s = .of t →
      g.exploreIfPresent t v = ((s.visit g v).toTraversal, true) ∧
      s.explore g v = .of (g.exploreIfPresent t v).1 := by
  obtain ⟨l, h, hl⟩ := exists_adds_visit (g := g) s v
  rw [explore_eq_visit]
  refine ⟨rfl, ⟨l, h.finished_eq, h.nodup, hl, ?_, h.mem_seen_iff, h.find?_eq, h.counter_eq⟩, ?_⟩
  · intro u hu
    exact hg.closed.mem_vertices_of_reaches hv ((hl u).mp hu).reaches
  · rintro t rfl
    have hpresent : g.exploreIfPresent t v = (g.explore t v, true) := by
      rw [Graph.exploreIfPresent, Graph.contains, if_pos (OrderedMap.contains_iff.mpr hv)]
    rw [hpresent, ← explore_eq_visit, explore_of]
    exact ⟨rfl, rfl⟩

/-- Two ways from the first vertex to the fourth, and on to the fifth. -/
def twoWays : Graph Nat :=
  (((((Graph.empty true).addEdge 1 2).addEdge 1 3).addEdge 2 4).addEdge 3 4).addEdge 4 5

/-- The search has seen the second vertex, and numbered the fifth without seeing it. -/
def halfway : Survey Nat :=
  { labels := (OrderedMap.empty.insert 2 7).insert 5 8, finished := [2], counter := 9, seen := {2} }

/-- In the example the search goes round the vertex that was seen, and numbers the fifth vertex
anew. -/
theorem explore_recursive_twoWays :
    twoWays.Built ∧ 1 ∈ twoWays.vertices ∧
    ∃ l, (halfway.explore twoWays 1).finished = [2] ++ l ∧ 5 ∈ l ∧ 2 ∉ l ∧
      (halfway.explore twoWays 1).labels.find? 5 = some 9 := by
  have hbuilt : twoWays.Built :=
    .addEdge _ _ (.addEdge _ _ (.addEdge _ _ (.addEdge _ _ (.addEdge _ _ (.empty true)))))
  have hv : 1 ∈ twoWays.vertices := by decide
  obtain ⟨-, ⟨l, hfinished, -, hl, -, -, hfind, -⟩, -⟩ := explore_recursive hbuilt hv halfway
  have h13 : 3 ∈ twoWays.neighbors 1 ∧ 3 ∉ halfway.seen := by decide
  have h34 : 4 ∈ twoWays.neighbors 3 ∧ 4 ∉ halfway.seen := by decide
  have h45 : 5 ∈ twoWays.neighbors 4 ∧ 5 ∉ halfway.seen := by decide
  have h5 : 5 ∈ l := (hl 5).mpr (.tail (.tail (.tail .refl h13) h34) h45)
  refine ⟨hbuilt, hv, l, hfinished, h5, ?_, ?_⟩
  · intro h2
    have hreach : twoWays.ReachesAvoiding halfway.seen 1 2 := (hl 2).mp h2
    exact hreach.not_mem (by decide) (by decide)
  · rw [hfind, if_pos h5]
    rfl

end Survey

end Clausal
