import Clausal.Proofs.Graph.Edges
import Clausal.Proofs.TwoSat.Readings

/-!
# What the implication graph says

If one literal reaches another in the implication graph, then the formula entails the second one from
the first one. The converse holds up to literals that are false or true in all solutions: a set of
literals that is closed along the edges and has no literal together with its complement can be made
true in any solution (`Represents.holds_making`). Main statement: the graph has two literals for each
variable and two edges for each clause, and what it says about two literals is what a satisfiable
formula entails (`implicationGraph_entails`).
-/

namespace Clausal

/-- Every solution that makes the first literal true makes the second one true. -/
def Cnf.Entails (f : Cnf) (l m : Literal) : Prop :=
  ∀ a : Assignment, a.length = f.numVariables → f.check a = .ok true →
    l.Holds a.valuation → m.Holds a.valuation

/-- A valuation sees the values of the variables that an assignment of its values covers. -/
lemma Literal.holds_toAssignment_iff {σ : Valuation} {n : Nat} {l : Literal}
    (h : l.var.index ≤ n) : l.Holds (Valuation.toAssignment σ n).valuation ↔ l.Holds σ := by
  rw [Literal.Holds, Literal.Holds, Valuation.valuation_toAssignment h]

/-- Entailing is a matter of all valuations that make the formula true, listed as assignments or
not. -/
lemma Cnf.entails_iff {f : Cnf} {l m : Literal} (hf : f.InRange)
    (hl : l.var.index ≤ f.numVariables) (hm : m.var.index ≤ f.numVariables) :
    f.Entails l m ↔ ∀ σ, f.Holds σ → l.Holds σ → m.Holds σ := by
  constructor
  · intro h σ hσ htrue
    have hpass := check_toAssignment hf hσ
    have hlen := Valuation.length_toAssignment σ f.numVariables
    rw [← Literal.holds_toAssignment_iff hm]
    exact h _ hlen hpass ((Literal.holds_toAssignment_iff hl).mpr htrue)
  · intro h a ha hpass htrue
    exact h a.valuation ((check_eq_true_iff hf (Nat.le_of_eq ha.symm)).mp hpass) htrue

namespace Solver.TwoSat

variable {f : Cnf} {g : Graph Literal}

/-! ### Literals made true -/

open Classical in
/-- The valuation that makes the literals of a set true, and has the values of `σ` for the variables
without a literal in it. -/
noncomputable def making (T : Set Literal) (σ : Valuation) : Valuation := fun v =>
  if ⟨v, false⟩ ∈ T then true else if ⟨v, true⟩ ∈ T then false else σ v

/-- The literals of a set are made true, if none is there together with its complement. -/
lemma holds_making_of_mem {T : Set Literal} {σ : Valuation} {l : Literal}
    (hT : ∀ l ∈ T, l.complement ∉ T) (hl : l ∈ T) : l.Holds (making T σ) := by
  obtain ⟨v, b⟩ := l
  cases b with
  | false => simp [Literal.Holds, making, hl, Literal.value]
  | true =>
    have hnot : (⟨v, false⟩ : Literal) ∉ T := hT ⟨v, true⟩ hl
    simp [Literal.Holds, making, hl, hnot, Literal.value]

/-- A literal keeps its value if neither it nor its complement is made true. -/
lemma holds_making_iff {T : Set Literal} {σ : Valuation} {l : Literal} (hl : l ∉ T)
    (hl' : l.complement ∉ T) : l.Holds (making T σ) ↔ l.Holds σ := by
  have hvalue : making T σ l.var = σ l.var := by
    obtain ⟨v, b⟩ := l
    cases b with
    | false =>
      have hl' : (⟨v, true⟩ : Literal) ∉ T := hl'
      simp [making, hl, hl']
    | true =>
      have hl' : (⟨v, false⟩ : Literal) ∉ T := hl'
      simp [making, hl, hl']
  rw [Literal.Holds, Literal.Holds, hvalue]

/-- Making true a set of literals that is closed along the edges, and has no literal together with its
complement, leaves a solution a solution. -/
lemma Represents.holds_making {T : Set Literal} {σ : Valuation} (h : Represents g f)
    (hsize : ∀ c ∈ f.clauses, c.size = 2) (hT : ∀ l ∈ T, l.complement ∉ T)
    (hclosed : ∀ l ∈ T, ∀ m ∈ g.neighbors l, m ∈ T) (hσ : f.Holds σ) : f.Holds (making T σ) := by
  intro c hc
  obtain ⟨a, b, hab⟩ := List.length_eq_two.mp (hsize c hc)
  have ha : a ∈ c := by simp [← Clause.mem_literals, hab]
  have hb : b ∈ c := by simp [← Clause.mem_literals, hab]
  by_cases hTa : a ∈ T
  · exact ⟨a, ha, holds_making_of_mem hT hTa⟩
  by_cases hTb : b ∈ T
  · exact ⟨b, hb, holds_making_of_mem hT hTb⟩
  -- neither complement is in the set, as the clause leads from it to the other literal
  have hab' : b ∈ g.neighbors a.complement :=
    (h.mem_neighbors_iff _ _).mpr ⟨c, hc, .inl (by simpa using hab)⟩
  have hba' : a ∈ g.neighbors b.complement :=
    (h.mem_neighbors_iff _ _).mpr ⟨c, hc, .inr (by simpa using hab)⟩
  have hTa' : a.complement ∉ T := fun hmem => hTb (hclosed _ hmem b hab')
  have hTb' : b.complement ∉ T := fun hmem => hTa (hclosed _ hmem a hba')
  obtain ⟨l, hl, htrue⟩ := hσ c hc
  have hl' : l = a ∨ l = b := by simpa [← Clause.mem_literals, hab] using hl
  rcases hl' with rfl | rfl
  · exact ⟨l, hl, (holds_making_iff hTa hTa').mpr htrue⟩
  · exact ⟨l, hl, (holds_making_iff hTb hTb').mpr htrue⟩

/-! ### Reaching what is entailed -/

/-- The literals that one of two literals reaches. -/
def reached (g : Graph Literal) (a b : Literal) : Set Literal :=
  {l | g.Reaches a l ∨ g.Reaches b l}

/-- What two literals reach is closed along the edges. -/
lemma reached_closed {a b : Literal} :
    ∀ l ∈ reached g a b, ∀ m ∈ g.neighbors l, m ∈ reached g a b := by
  intro l hl m hm
  cases hl with
  | inl hal => exact .inl (.tail hal hm)
  | inr hbl => exact .inr (.tail hbl hm)

/-- Two literals reach no literal together with its complement, if neither of them reaches its own
complement or that of the other one. -/
lemma Represents.reached_consistent {a b : Literal} (h : Represents g f)
    (haa : ¬ g.Reaches a a.complement) (hab : ¬ g.Reaches a b.complement)
    (hbb : ¬ g.Reaches b b.complement) : ∀ l ∈ reached g a b, l.complement ∉ reached g a b := by
  have hba : ¬ g.Reaches b a.complement := by
    intro hr
    have hr' := h.reaches_complement hr
    rw [Literal.complement_complement] at hr'
    exact hab hr'
  -- what leads to the complement of a literal leads back from the literal
  have hback : ∀ {x l}, g.Reaches x l.complement → g.Reaches l x.complement := by
    intro x l hr
    have hr' := h.reaches_complement hr
    rwa [Literal.complement_complement] at hr'
  intro l hl hl'
  cases hl with
  | inl hal =>
    cases hl' with
    | inl hal' => exact haa (hal.trans (hback hal'))
    | inr hbl' => exact hab (hal.trans (hback hbl'))
  | inr hbl =>
    cases hl' with
    | inl hal' => exact hba (hbl.trans (hback hal'))
    | inr hbl' => exact hbb (hbl.trans (hback hbl'))

/-- A literal reaches what it entails in a satisfiable formula, or it reaches its own complement, or
what it entails is reached by its complement. -/
lemma Represents.reaches_of_entailed {l m : Literal} (h : Represents g f)
    (hsize : ∀ c ∈ f.clauses, c.size = 2) (hsat : f.Satisfiable)
    (hlm : ∀ σ, f.Holds σ → l.Holds σ → m.Holds σ) :
    g.Reaches l m ∨ g.Reaches l l.complement ∨ g.Reaches m.complement m := by
  by_contra hnone
  simp only [not_or] at hnone
  obtain ⟨hnot, hll, hmm⟩ := hnone
  obtain ⟨σ, hσ⟩ := hsat
  -- otherwise the first literal and the complement of the second one can be made true together
  have hT : ∀ k ∈ reached g l m.complement, k.complement ∉ reached g l m.complement := by
    apply h.reached_consistent hll
    · rwa [Literal.complement_complement]
    · rwa [Literal.complement_complement]
  have hholds := h.holds_making hsize hT reached_closed hσ
  have hl : l.Holds (making (reached g l m.complement) σ) :=
    holds_making_of_mem hT (.inl .refl)
  have hm : m.complement.Holds (making (reached g l m.complement) σ) :=
    holds_making_of_mem hT (.inr .refl)
  exact Literal.holds_complement_iff.mp hm (hlm _ hholds hl)

/-! ### Vertices and edges -/

/-- Adding literals as vertices adds no edges. -/
lemma numEdges_foldl_addVertex (ls : List Literal) (g : Graph Literal) :
    (ls.foldl Graph.addVertex g).numEdges = g.numEdges := by
  induction ls generalizing g with
  | nil => rfl
  | cons l rest ih => rw [List.foldl_cons, ih, Graph.numEdges_addVertex]

/-- Each clause adds two edges. -/
lemma numEdges_addImplications {cs : List Clause} {g g' : Graph Literal}
    (h : addImplications g cs = .ok g') : g'.numEdges = g.numEdges + 2 * cs.length := by
  induction cs generalizing g with
  | nil =>
    cases h
    rfl
  | cons c rest ih =>
    simp only [addImplications] at h
    split at h
    · rw [ih h, Graph.numEdges_addEdge, Graph.numEdges_addEdge, List.length_cons]
      omega
    · cases h

/-- The implication graph has two edges for each clause, also where they are the same. -/
lemma numEdges_implicationGraph (h : implicationGraph f = .ok g) :
    g.numEdges = 2 * f.clauses.length := by
  rw [numEdges_addImplications h, numEdges_foldl_addVertex]
  exact Nat.zero_add _

/-- The vertices of a graph that represents a formula are the literals of its variables. -/
lemma Represents.vertices_perm (h : Represents g f) : g.vertices.Perm (literals f) := by
  refine (List.perm_ext_iff_of_nodup g.nodup_vertices (nodup_literals f)).mpr ?_
  intro l
  rw [h.mem_vertices_iff, mem_literals_iff]

/-- The implication graph of a formula with two literals per clause has the two literals of each
variable as vertices, each once, and two edges for each clause. If a literal reaches another one,
then the complements reach each other the other way round, and the formula entails the second literal
from the first one. If a satisfiable formula entails a literal from another one, then this reaches
it, unless it reaches its own complement or the literal entailed is reached by its complement. -/
theorem implicationGraph_entails (hf : f.InRange) (hsize : ∀ c ∈ f.clauses, c.size = 2) :
    ∃ g, implicationGraph f = .ok g ∧
      (g.vertices.Nodup ∧ g.vertices.length = 2 * f.numVariables ∧
        ∀ l, l ∈ g.vertices ↔ l.var.index ≤ f.numVariables) ∧
      g.numEdges = 2 * f.clauses.length ∧
      ∀ l m : Literal, l.var.index ≤ f.numVariables → m.var.index ≤ f.numVariables →
        (g.Reaches l m → g.Reaches m.complement l.complement ∧ f.Entails l m) ∧
        ((∃ a : Assignment, a.length = f.numVariables ∧ f.check a = .ok true) → f.Entails l m →
          g.Reaches l m ∨ g.Reaches l l.complement ∨ g.Reaches m.complement m) := by
  obtain ⟨g, hok, h⟩ := represents_of_size hf hsize
  refine ⟨g, hok, ⟨g.nodup_vertices, ?_, h.mem_vertices_iff⟩, numEdges_implicationGraph hok, ?_⟩
  · rw [h.vertices_perm.length_eq, length_literals]
  intro l m hl hm
  rw [f.entails_iff hf hl hm]
  constructor
  · intro hr
    refine ⟨h.reaches_complement hr, ?_⟩
    intro σ hσ htrue
    exact h.holds_of_reaches hσ hr htrue
  · intro hsat hlm
    rw [← Cnf.satisfiable_iff_exists_check hf] at hsat
    exact h.reaches_of_entailed hsize hsat hlm

/-- Three variables of which the second is true in all solutions, with a clause that is a tautology
and a clause that is there twice. -/
def secondTrue : Cnf where
  numVariables := 3
  clauses := [.ofInts [1, 2], .ofInts [-1, 2], .ofInts [3, -3], .ofInts [1, 2]]

/-- In the example the negation of the second variable reaches the variable, as this is true in all
solutions. The third variable does not reach its negation, although they make up a clause. -/
theorem implicationGraph_entails_secondTrue :
    secondTrue.InRange ∧ (∀ c ∈ secondTrue.clauses, c.size = 2) ∧
    ∃ g, implicationGraph secondTrue = .ok g ∧ g.vertices.length = 6 ∧ g.numEdges = 8 ∧
      g.Reaches ⟨.ofPlace 1, true⟩ ⟨.ofPlace 1, false⟩ ∧
      ¬ g.Reaches ⟨.ofPlace 2, false⟩ ⟨.ofPlace 2, true⟩ := by
  have hf : secondTrue.InRange := by
    show ∀ c ∈ secondTrue.clauses, ∀ l ∈ c.literals, l.var.index ≤ secondTrue.numVariables
    decide
  have hsize : ∀ c ∈ secondTrue.clauses, c.size = 2 := by decide
  obtain ⟨g, hok, ⟨-, hvertices, -⟩, hedges, hsays⟩ := implicationGraph_entails hf hsize
  refine ⟨hf, hsize, g, hok, hvertices, hedges, ?_, ?_⟩
  · -- both literals are the same up to complements, so all three ways to reach are the one asked for
    obtain ⟨-, hconverse⟩ := hsays ⟨.ofPlace 1, true⟩ ⟨.ofPlace 1, false⟩ (by decide) (by decide)
    have hentails : secondTrue.Entails ⟨.ofPlace 1, true⟩ ⟨.ofPlace 1, false⟩ := by
      intro a ha
      obtain ⟨x, y, z, rfl⟩ := List.length_eq_three.mp ha
      revert x y z
      decide
    rcases hconverse ⟨[true, true, true], rfl, rfl⟩ hentails with hr | hr | hr
    · exact hr
    · exact hr
    · exact hr
  · intro hr
    obtain ⟨hforward, -⟩ := hsays ⟨.ofPlace 2, false⟩ ⟨.ofPlace 2, true⟩ (by decide) (by decide)
    obtain ⟨-, hentails⟩ := hforward hr
    cases hentails [true, true, true] rfl rfl rfl

end Solver.TwoSat

end Clausal
