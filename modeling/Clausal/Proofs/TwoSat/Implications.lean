import Clausal.Proofs.Graph.Adjacency
import Clausal.Proofs.Satisfaction
import Clausal.Solver.TwoSat
import Mathlib.Data.List.Basic

/-!
# The implication graph

What the graph of a formula with two literals per clause stands for. Main statements: the graph is
built exactly if every clause has two literals, and it represents the formula
(`represents_of_size`, `implicationGraph_eq_error`). In a graph that represents a formula,
reachability is contrapositive (`Represents.reaches_complement`), and every valuation that makes the
formula true keeps truth along the edges (`Represents.holds_of_reaches`).
-/

namespace Clausal

/-- In a directed graph an edge adds the destination at its source only. -/
lemma Graph.mem_neighbors_addEdge_of_directed {α : Type} [DecidableEq α] {g : Graph α}
    {a b u w : α} (h : g.directed = true) :
    w ∈ (g.addEdge a b).neighbors u ↔ w ∈ g.neighbors u ∨ (u = a ∧ w = b) := by
  simp [mem_neighbors_addEdge, h]

/-- If one literal is the complement of another, this is the complement of the first. -/
lemma Literal.complement_eq_iff {l m : Literal} : l.complement = m ↔ l = m.complement := by
  constructor
  · rintro rfl
    rw [complement_complement]
  · rintro rfl
    rw [complement_complement]

/-- No literal is its own complement. -/
lemma Literal.complement_ne (l : Literal) : l.complement ≠ l := by
  obtain ⟨v, b⟩ := l
  cases b <;> simp [complement]

namespace Solver.TwoSat

/-- A clause says that the second literal is true if the first one is. -/
def Implies (cs : List Clause) (l m : Literal) : Prop :=
  ∃ c ∈ cs, c.literals = [l.complement, m] ∨ c.literals = [m, l.complement]

/-- A clause of two literals also implies the complement of the premise from that of the
conclusion. -/
lemma Implies.complement {cs : List Clause} {l m : Literal} (h : Implies cs l m) :
    Implies cs m.complement l.complement := by
  obtain ⟨c, hc, hl⟩ := h
  refine ⟨c, hc, ?_⟩
  rw [Literal.complement_complement]
  exact hl.symm

/-- What makes the clauses true makes the conclusion of an implication true, if its premise is. -/
lemma Implies.holds {cs : List Clause} {l m : Literal} {σ : Valuation} (h : Implies cs l m)
    (hσ : ∀ c ∈ cs, c.Holds σ) (hl : l.Holds σ) : m.Holds σ := by
  obtain ⟨c, hc, hlits⟩ := h
  obtain ⟨k, hk, htrue⟩ := hσ c hc
  have hkm : k = l.complement ∨ k = m := by
    rw [← Clause.mem_literals] at hk
    rcases hlits with e | e
    · simpa [e] using hk
    · simpa [e, or_comm] using hk
  rcases hkm with rfl | rfl
  · exact absurd hl (Literal.holds_complement_iff.mp htrue)
  · exact htrue

/-- A graph represents a formula if it was built with all literals as vertices and the implications
of the clauses as edges. -/
structure Represents (g : Graph Literal) (f : Cnf) : Prop where
  built : g.Built
  mem_vertices_iff : ∀ l, l ∈ g.vertices ↔ l.var.index ≤ f.numVariables
  mem_neighbors_iff : ∀ l m, m ∈ g.neighbors l ↔ Implies f.clauses l m

/-! ### Building the graph -/

/-- The literals of a formula are those of its variables. -/
lemma mem_literals_iff {f : Cnf} {l : Literal} :
    l ∈ literals f ↔ l.var.index ≤ f.numVariables := by
  obtain ⟨v, b⟩ := l
  simp only [literals, Cnf.vars, List.mem_flatMap, List.mem_cons, Literal.mk.injEq,
    List.not_mem_nil, or_false, Variable.mem_upTo]
  constructor
  · rintro ⟨w, hw, ⟨rfl, -⟩ | ⟨rfl, -⟩⟩
    · exact hw
    · exact hw
  · intro hv
    cases b with
    | false => exact ⟨v, hv, .inl ⟨rfl, rfl⟩⟩
    | true => exact ⟨v, hv, .inr ⟨rfl, rfl⟩⟩

/-- The graph of the literals without implications represents the formula without its clauses. -/
lemma represents_literals (f : Cnf) :
    Represents ((literals f).foldl Graph.addVertex (Graph.empty true)) ⟨f.numVariables, []⟩ ∧
      ((literals f).foldl Graph.addVertex (Graph.empty true)).directed = true := by
  -- for any literals and any graph, as the graph grows along the list
  suffices h : ∀ (ls : List Literal) (g : Graph Literal), g.Built → g.directed = true →
      (ls.foldl Graph.addVertex g).Built ∧ (ls.foldl Graph.addVertex g).directed = true ∧
        ∀ l, l ∈ (ls.foldl Graph.addVertex g).vertices ↔ l ∈ g.vertices ∨ l ∈ ls by
    obtain ⟨hb, hd, hv⟩ := h (literals f) (Graph.empty true) (.empty true) rfl
    refine ⟨⟨hb, ?_, ?_⟩, hd⟩
    · intro l
      rw [hv l, mem_literals_iff]
      simp [Graph.vertices, Graph.empty]
    · intro l m
      rw [Graph.neighbors_foldl_addVertex]
      simp [Implies, Graph.neighbors, Graph.empty]
  intro ls
  induction ls with
  | nil =>
    intro g hb hd
    exact ⟨hb, hd, by simp⟩
  | cons k rest ih =>
    intro g hb hd
    obtain ⟨hb', hd', hv⟩ := ih (g.addVertex k) (hb.addVertex k) hd
    refine ⟨hb', hd', ?_⟩
    intro l
    rw [List.foldl_cons, hv l, Graph.mem_vertices_addVertex, List.mem_cons, or_assoc]

/-- Adding the two implications of a clause represents the formula with the clause. -/
lemma Represents.concat {g : Graph Literal} {n : Nat} {cs : List Clause} {c : Clause}
    {a b : Literal} (h : Represents g ⟨n, cs⟩) (hd : g.directed = true)
    (hc : c.literals = [a, b]) (ha : a.var.index ≤ n) (hb : b.var.index ≤ n) :
    Represents ((g.addEdge a.complement b).addEdge b.complement a) ⟨n, cs ++ [c]⟩ where
  built := (h.built.addEdge a.complement b).addEdge b.complement a
  mem_vertices_iff := by
    intro l
    rw [Graph.mem_vertices_addEdge, Graph.mem_vertices_addEdge, h.mem_vertices_iff]
    constructor
    · rintro ((hl | rfl | rfl) | rfl | rfl)
      · exact hl
      · exact ha
      · exact hb
      · exact hb
      · exact ha
    · intro hl
      exact .inl (.inl hl)
  mem_neighbors_iff := by
    intro l m
    have hd' : (g.addEdge a.complement b).directed = true := by simpa using hd
    rw [Graph.mem_neighbors_addEdge_of_directed hd', Graph.mem_neighbors_addEdge_of_directed hd,
      h.mem_neighbors_iff]
    simp only [Implies, List.mem_append, List.mem_singleton]
    constructor
    · rintro ((⟨d, hd, hl⟩ | ⟨rfl, rfl⟩) | ⟨rfl, rfl⟩)
      · exact ⟨d, .inl hd, hl⟩
      · exact ⟨c, .inr rfl, .inl (by simpa using hc)⟩
      · exact ⟨c, .inr rfl, .inr (by simpa using hc)⟩
    · rintro ⟨d, hd | rfl, hl⟩
      · exact .inl (.inl ⟨d, hd, hl⟩)
      · rw [hc] at hl
        rcases hl with e | e
        · injection e with e₁ e₂
          injection e₂ with e₂
          exact .inl (.inr ⟨(Literal.complement_eq_iff.mp e₁.symm), e₂.symm⟩)
        · injection e with e₁ e₂
          injection e₂ with e₂
          exact .inr ⟨(Literal.complement_eq_iff.mp e₂.symm), e₁.symm⟩

/-- Adding the implications of further clauses of two literals succeeds and represents the formula
with these clauses. -/
lemma addImplications_eq_ok {n : Nat} {ds cs : List Clause} {g : Graph Literal}
    (h : Represents g ⟨n, ds⟩) (hd : g.directed = true) (hsize : ∀ c ∈ cs, c.size = 2)
    (hle : ∀ c ∈ cs, ∀ l ∈ c, l.var.index ≤ n) :
    ∃ g', addImplications g cs = .ok g' ∧ Represents g' ⟨n, ds ++ cs⟩ := by
  induction cs generalizing g ds with
  | nil => exact ⟨g, rfl, by simpa using h⟩
  | cons c rest ih =>
    obtain ⟨hc, hrest⟩ := List.forall_mem_cons.mp hsize
    obtain ⟨hlc, hlrest⟩ := List.forall_mem_cons.mp hle
    obtain ⟨a, b, hab⟩ := List.length_eq_two.mp hc
    have ha : a.var.index ≤ n := hlc a (by simp [← Clause.mem_literals, hab])
    have hb : b.var.index ≤ n := hlc b (by simp [← Clause.mem_literals, hab])
    obtain ⟨g', hok, hg'⟩ := ih (h.concat hd hab ha hb) (by simpa using hd) hrest hlrest
    refine ⟨g', ?_, by simpa using hg'⟩
    simpa only [addImplications, hab] using hok

/-- The implications of a clause that does not have two literals cannot be added. -/
lemma addImplications_eq_error {g : Graph Literal} {cs : List Clause}
    (h : ∃ c ∈ cs, c.size ≠ 2) : addImplications g cs = .error .clauseNotBinary := by
  induction cs generalizing g with
  | nil => simp at h
  | cons c rest ih =>
    simp only [addImplications]
    split
    · next a b hab =>
      apply ih
      obtain ⟨d, hd, hne⟩ := h
      rcases List.mem_cons.mp hd with rfl | hd
      · exact absurd (by simp [Clause.size, hab]) hne
      · exact ⟨d, hd, hne⟩
    · rfl

/-- The implication graph of a formula whose clauses have two literals represents the formula. -/
lemma represents_of_size {f : Cnf} (hf : f.InRange) (hsize : ∀ c ∈ f.clauses, c.size = 2) :
    ∃ g, implicationGraph f = .ok g ∧ Represents g f := by
  obtain ⟨h, hd⟩ := represents_literals f
  obtain ⟨g, hok, hg⟩ := addImplications_eq_ok h hd hsize hf
  exact ⟨g, hok, hg⟩

/-- There is no implication graph if some clause does not have two literals. -/
lemma implicationGraph_eq_error {f : Cnf} (h : ∃ c ∈ f.clauses, c.size ≠ 2) :
    implicationGraph f = .error .clauseNotBinary :=
  addImplications_eq_error h

/-! ### Reaching literals -/

/-- If a literal reaches another one, the complements reach each other the other way round. -/
lemma Represents.reaches_complement {f : Cnf} {g : Graph Literal} {l m : Literal}
    (h : Represents g f) (hr : g.Reaches l m) : g.Reaches m.complement l.complement := by
  induction hr with
  | refl => exact .refl
  | @tail m m' _ hm ih =>
    have himp := (h.mem_neighbors_iff m m').mp hm
    exact .head ((h.mem_neighbors_iff _ _).mpr himp.complement) ih

/-- A valuation that makes the formula true makes true what a true literal reaches. -/
lemma Represents.holds_of_reaches {f : Cnf} {g : Graph Literal} {l m : Literal} {σ : Valuation}
    (h : Represents g f) (hσ : f.Holds σ) (hr : g.Reaches l m) (hl : l.Holds σ) : m.Holds σ := by
  induction hr with
  | refl => exact hl
  | @tail m m' _ hm ih => exact ((h.mem_neighbors_iff m m').mp hm).holds hσ ih

/-- A formula in whose graph a variable and its negation reach each other is unsatisfiable. -/
lemma Represents.not_satisfiable {f : Cnf} {g : Graph Literal} {l : Literal} (h : Represents g f)
    (h₁ : g.Reaches l l.complement) (h₂ : g.Reaches l.complement l) : ¬ f.Satisfiable := by
  rintro ⟨σ, hσ⟩
  have hcompl := Literal.holds_complement_iff (σ := σ) (l := l)
  by_cases hl : l.Holds σ
  · exact hcompl.mp (h.holds_of_reaches hσ h₁ hl) hl
  · exact hl (h.holds_of_reaches hσ h₂ (hcompl.mpr hl))

end Solver.TwoSat

end Clausal
