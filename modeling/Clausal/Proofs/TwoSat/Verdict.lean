import Clausal.Proofs.Answer
import Clausal.Proofs.Construction
import Clausal.Proofs.Graph.Components
import Clausal.Proofs.TwoSat.Implications
import Clausal.Solver.Dispatch

/-!
# The verdict of the method for two-literal clauses

Main statement: the method refuses the formulas with a clause that does not have two literals, and
decides satisfiability for the others (`apply_decides`). If no variable has the number of its
negation, then the valuation that makes the literals with the smaller numbers true makes the formula
true (`Represents.holds_componentValue`). It is the one that is written from the finishing stack,
where these literals are below their complements (`Represents.updateAll_finished`).
-/

namespace Clausal.Solver.TwoSat

variable {f : Cnf} {g : Graph Literal} {t : Traversal Literal}

/-! ### The value that the numbers tell -/

/-- A literal is true by the component numbers exactly if its number is smaller than the one of its
complement. -/
lemma holds_componentValue_iff {labels : OrderedMap Literal Nat} {l : Literal} {i j : Nat}
    (hi : labels.find? l = some i) (hj : labels.find? l.complement = some j) (hne : i ≠ j) :
    l.Holds (componentValue labels) ↔ i < j := by
  obtain ⟨v, b⟩ := l
  simp only [Literal.complement] at hj
  cases b with
  | false =>
    rw [Bool.not_false] at hj
    simp [Literal.Holds, Literal.value, componentValue, hi, hj]
  | true =>
    rw [Bool.not_true] at hj
    simp only [Literal.Holds, Literal.value, componentValue, hi, hj, Bool.not_true,
      decide_eq_false_iff_not]
    omega

/-- If no variable has the number of its negation, then no literal has the number of its complement.
-/
lemma number_ne {labels : OrderedMap Literal Nat} {l : Literal} {i j : Nat}
    (hc : f.vars.any (clashes labels) = false) (hl : l.var.index ≤ f.numVariables)
    (hi : labels.find? l = some i) (hj : labels.find? l.complement = some j) : i ≠ j := by
  rw [List.any_eq_false] at hc
  have hv := hc l.var (Variable.mem_upTo.mpr hl)
  obtain ⟨v, b⟩ := l
  simp only [Literal.complement] at hj
  rintro rfl
  cases b with
  | false => exact hv (by simp [clashes, hi, show labels.find? ⟨v, true⟩ = some i from hj])
  | true => exact hv (by simp [clashes, hi, show labels.find? ⟨v, false⟩ = some i from hj])

/-- When all vertices are visited, every literal of the formula and its complement have numbers. -/
lemma Represents.exists_numbers (h : Represents g f)
    (hvis : ∀ l, t.visited l = true ↔ l ∈ g.vertices) {l : Literal}
    (hl : l.var.index ≤ f.numVariables) :
    (∃ i, t.labels.find? l = some i) ∧ ∃ j, t.labels.find? l.complement = some j := by
  have hvisited : ∀ m : Literal, m.var.index ≤ f.numVariables → ∃ i, t.labels.find? m = some i :=
    fun m hm => Traversal.visited_iff.mp ((hvis m).mpr ((h.mem_vertices_iff m).mpr hm))
  exact ⟨hvisited l hl, hvisited l.complement hl⟩

/-- The literals with the smaller numbers make the formula true. -/
lemma Represents.holds_componentValue (h : Represents g f) (hf : f.InRange)
    (hsize : ∀ c ∈ f.clauses, c.size = 2) (hn : g.Numbered t)
    (hvis : ∀ l, t.visited l = true ↔ l ∈ g.vertices)
    (hc : f.vars.any (clashes t.labels) = false) : f.Holds (componentValue t.labels) := by
  intro c hcf
  obtain ⟨a, b, hab⟩ := List.length_eq_two.mp (hsize c hcf)
  have ha : a ∈ c := by simp [← Clause.mem_literals, hab]
  have hb : b ∈ c := by simp [← Clause.mem_literals, hab]
  by_cases hta : a.Holds (componentValue t.labels)
  · exact ⟨a, ha, hta⟩
  by_cases htb : b.Holds (componentValue t.labels)
  · exact ⟨b, hb, htb⟩
  -- otherwise the numbers would go down along the two implications and up between the complements
  obtain ⟨⟨i, hi⟩, i', hi'⟩ := h.exists_numbers hvis (hf c hcf a ha)
  obtain ⟨⟨j, hj⟩, j', hj'⟩ := h.exists_numbers hvis (hf c hcf b hb)
  have hle : i' ≤ i := by
    rw [holds_componentValue_iff hi hi' (number_ne hc (hf c hcf a ha) hi hi')] at hta
    omega
  have hlt : j' < j := by
    have hne := number_ne hc (hf c hcf b hb) hj hj'
    rw [holds_componentValue_iff hj hj' hne] at htb
    omega
  have hab' : b ∈ g.neighbors a.complement :=
    (h.mem_neighbors_iff _ _).mpr ⟨c, hcf, .inl (by simpa using hab)⟩
  have hba' : a ∈ g.neighbors b.complement :=
    (h.mem_neighbors_iff _ _).mpr ⟨c, hcf, .inr (by simpa using hab)⟩
  have h₁ : j ≤ i' := hn.le_of_arc _ _ _ _ hab' hi' hj
  have h₂ : i ≤ j' := hn.le_of_arc _ _ _ _ hba' hj' hi
  omega

/-! ### The value that is written last -/

/-- When all vertices are visited, the literals of the formula are on the finishing stack. -/
lemma Represents.mem_finished_iff (h : Represents g f) (hn : g.Numbered t)
    (hvis : ∀ l, t.visited l = true ↔ l ∈ g.vertices) {l : Literal} :
    l ∈ t.finished ↔ l.var.index ≤ f.numVariables := by
  rw [← hn.settled.visited_iff_mem, hvis, h.mem_vertices_iff]

/-- The lowest literal of a variable on the finishing stack is true by the component numbers. -/
lemma Represents.find?_finished (h : Represents g f) (hn : g.Numbered t)
    (hvis : ∀ l, t.visited l = true ↔ l ∈ g.vertices)
    (hc : f.vars.any (clashes t.labels) = false) {v : Variable} (hv : v.index ≤ f.numVariables) :
    ∃ l, t.finished.find? (fun k => k.var = v) = some l ∧ l.var = v ∧
      l.Holds (componentValue t.labels) := by
  have hmem : ∀ l : Literal, l.var = v → l ∈ t.finished := by
    rintro l rfl
    exact (h.mem_finished_iff hn hvis).mpr hv
  obtain ⟨l, hl⟩ : ∃ l, t.finished.find? (fun k => k.var = v) = some l := by
    rw [← Option.isSome_iff_exists, List.find?_isSome]
    exact ⟨⟨v, false⟩, hmem _ rfl, by simp⟩
  obtain ⟨hlv, l₁, l₂, hsplit, hfirst⟩ := List.find?_eq_some_iff_append.mp hl
  have hlv : l.var = v := by simpa using hlv
  -- the complement is above it, so that its number is not smaller
  have habove : l.complement ∈ l₂ := by
    have hin := hmem l.complement hlv
    rw [hsplit, List.mem_append, List.mem_cons] at hin
    rcases hin with hin | hin | hin
    · have hne : ¬ l.complement.var = v := by simpa using hfirst _ hin
      exact absurd hlv hne
    · exact absurd hin l.complement_ne
    · exact hin
  obtain ⟨⟨i, hi⟩, j, hj⟩ := h.exists_numbers hvis (hlv ▸ hv)
  have hne : i ≠ j := number_ne hc (hlv ▸ hv) hi hj
  have hle : i ≤ j := by
    have hsorted := hn.sorted
    rw [hsplit, List.pairwise_append, List.pairwise_cons] at hsorted
    exact hsorted.2.1.1 l.complement habove i j hi hj
  exact ⟨l, hl, hlv, (holds_componentValue_iff hi hj hne).mpr (by omega)⟩

/-- Writing the literals from the top of the finishing stack to its bottom gives each variable the
value that the component numbers tell. -/
lemma Represents.updateAll_finished (h : Represents g f) (hn : g.Numbered t)
    (hvis : ∀ l, t.visited l = true ↔ l ∈ g.vertices)
    (hc : f.vars.any (clashes t.labels) = false) {σ : Valuation} {v : Variable}
    (hv : v.index ≤ f.numVariables) :
    Valuation.updateAll σ (t.finished.reverse.map fun l => (l.var, l.value)) v =
      componentValue t.labels v := by
  obtain ⟨l, hl, hlv, hholds⟩ := h.find?_finished hn hvis hc hv
  rw [Valuation.updateAll_reverse hl, ← hlv]
  exact hholds.symm

/-! ### The verdict -/

/-- If a variable has the number of its negation, the method reports that there is no solution. -/
lemma result_of_clash (hok : implicationGraph f = .ok g)
    (hc : f.vars.any (clashes g.components.labels) = true) :
    (solve f).result = .error (.unsatisfiable .twoSat) := by
  simp [solve, hok, Report.after, hc, Report.silent]

/-- Otherwise it writes the literals from the top of the finishing stack to its bottom. -/
lemma Represents.result_of_not_clash (h : Represents g f) (hok : implicationGraph f = .ok g)
    (hc : f.vars.any (clashes g.components.labels) = false) :
    ∃ a, (solve f).result = .ok a ∧ a.length = f.numVariables ∧
      a.valuation = Valuation.updateAll (Assignment.allFalse f.numVariables).valuation
        (g.components.finished.reverse.map fun l => (l.var, l.value)) := by
  obtain ⟨hn, hvis⟩ := Graph.components_numbered h.built.closed
  have hplace : ∀ e ∈ g.components.finished.reverse.map fun l => (l.var, l.value),
      e.1.place < (Assignment.allFalse f.numVariables).length := by
    intro e he
    obtain ⟨l, hl, rfl⟩ := List.mem_map.mp he
    rw [List.mem_reverse, h.mem_finished_iff hn hvis] at hl
    simpa [Assignment.allFalse] using Variable.place_lt hl
  obtain ⟨a, hwrite, hlen, hval⟩ := Search.writeAll_eq_ok hplace
  refine ⟨a, ?_, by simpa [Assignment.allFalse] using hlen, hval⟩
  simp only [solve, hok, Report.after, hc, Bool.false_eq_true, ↓reduceIte, Report.silent,
    writeLiterals_eq, hwrite]

/-- The method decides every formula with two literals per clause. -/
lemma solve_spec (hf : f.InRange) (hsize : ∀ c ∈ f.clauses, c.size = 2) :
    f.Decides (.unsatisfiable .twoSat) (solve f).result := by
  obtain ⟨g, hok, h⟩ := represents_of_size hf hsize
  obtain ⟨hn, hvis⟩ := Graph.components_numbered h.built.closed
  cases hc : f.vars.any (clashes g.components.labels) with
  | true =>
    rw [result_of_clash hok hc]
    refine .refuted ?_
    obtain ⟨v, hv, hclash⟩ := List.any_eq_true.mp hc
    have hv : v.index ≤ f.numVariables := Variable.mem_upTo.mp hv
    obtain ⟨⟨i, hi⟩, j, hj⟩ := h.exists_numbers hvis (l := ⟨v, false⟩) hv
    have hij : i = j := by
      rw [clashes, beq_iff_eq, hi, show g.components.labels.find? ⟨v, true⟩ = some j from hj]
        at hclash
      exact Option.some.inj hclash
    obtain ⟨h₁, h₂⟩ := (hn.eq_iff _ _ i j hi hj).mp hij
    exact h.not_satisfiable h₁ h₂
  | false =>
    obtain ⟨a, hresult, hlen, hval⟩ := h.result_of_not_clash hok hc
    rw [hresult]
    refine .found hlen ?_
    -- what is written differs from the numbers' valuation at most beyond the formula's variables
    rw [hval, Cnf.holds_congr hf]
    · exact h.holds_componentValue hf hsize hn hvis hc
    · intro v hv
      exact h.updateAll_finished hn hvis hc hv

/-- The method refuses a formula with a clause that does not have two literals. -/
lemma solve_eq_clauseNotBinary (h : ∃ c ∈ f.clauses, c.size ≠ 2) :
    (solve f).result = .error .clauseNotBinary := by
  simp [solve, implicationGraph_eq_error h, Report.silent]

/-- The method refuses a formula exactly if some clause does not have two literals. For the others it
decides satisfiability: it gives an assignment of the variables that passes the check if there is
one, and reports that there is none exactly if every assignment fails. The formula stays as it is. -/
theorem apply_decides {n : Nat} {W : Workspace} (h : W.Built n) :
    let result := (apply W .twoSat).2.result
    (result = .error .clauseNotBinary ↔ ∃ c ∈ W.toCnf.clauses, c.size ≠ 2) ∧
    ((∀ c ∈ W.toCnf.clauses, c.size = 2) →
      ((∃ a : Assignment, a.length = n ∧ W.toCnf.check a = .ok true) →
        ∃ a, result = .ok a ∧ a.length = n ∧ W.toCnf.check a = .ok true) ∧
      (result = .error (.unsatisfiable .twoSat) ↔
        ∀ a : Assignment, a.length = n → W.toCnf.check a = .ok false)) ∧
    (apply W .twoSat).1 = W := by
  have hf := h.coherent.inRange
  have hn : W.toCnf.numVariables = n := h.coherent.numVariables_eq
  simp only [apply]
  refine ⟨?_, ?_, trivial⟩
  · constructor
    · intro herr
      by_cases hsize : ∀ c ∈ W.toCnf.clauses, c.size = 2
      · rcases ((solve_spec hf hsize).check hf).1 with ⟨a, hok, -⟩ | herr'
        · rw [hok] at herr
          cases herr
        · rw [herr'] at herr
          cases herr
      · simpa using hsize
    · exact solve_eq_clauseNotBinary
  · intro hsize
    obtain ⟨hresult, hunsat⟩ := (solve_spec hf hsize).check hf
    rw [hn] at hresult hunsat
    refine ⟨?_, hunsat⟩
    rintro ⟨a, ha, hpass⟩
    rcases hresult with hfound | herr
    · exact hfound
    · rw [hunsat.mp herr a ha] at hpass
      cases hpass

/-- Two variables of which the second is true and implies the first. -/
def chained : Workspace where
  arena := ⟨#[.ofInts [1, 2], .ofInts [-1, 2], .ofInts [-2, 1]]⟩
  formula := {
    numVariables := 2
    refs := [0, 1, 2]
    queue := []
    register := [(.ofPlace 0, 1), (.ofPlace 1, 2)] }

/-- The clauses of the chain can be added one after the other. -/
lemma built_chained : chained.Built 2 := by
  have h := Workspace.Prepared.start (n := 2) chained.arena
  have h := h.add (r := 0) (by decide) rfl
  have h := h.add (r := 1) (by decide) rfl
  exact h.add (r := 2) (by decide) rfl

/-- The method finds an assignment for the chain. -/
theorem apply_decides_chained :
    chained.Built 2 ∧ ∃ a, (apply chained .twoSat).2.result = .ok a ∧ a.length = 2 ∧
      chained.toCnf.check a = .ok true := by
  obtain ⟨-, hbinary, -⟩ := apply_decides built_chained
  obtain ⟨hfound, -⟩ := hbinary (by decide)
  exact ⟨built_chained, hfound ⟨[true, true], rfl, rfl⟩⟩

end Clausal.Solver.TwoSat
