import Clausal.Proofs.TwoSat.Verdict

/-!
# Two readings of a solution

A solution of a formula with two literals per clause can be read from the finishing stack of its
implication graph, where the lowest literal of each variable is true, and from the component
numbers, where the literal with the smaller number is true. Main statement: the method gives the
solution of both readings, and the stack has each literal once (`solve_readings`).
-/

namespace Clausal.Solver.TwoSat

variable {f : Cnf} {g : Graph Literal} {t : Traversal Literal}

/-- The literals of a formula are listed once each. -/
lemma nodup_literals (f : Cnf) : (literals f).Nodup := by
  rw [literals, List.nodup_flatMap]
  constructor
  · intro v _
    simp
  · -- literals of different variables are different
    refine (Variable.nodup_upTo f.numVariables).imp ?_
    intro v w hne
    simp [List.disjoint_left, hne]

/-- A formula has two literals for each of its variables. -/
lemma length_literals (f : Cnf) : (literals f).length = 2 * f.numVariables := by
  simp [literals, Cnf.vars, Variable.upTo, List.length_flatMap, Function.comp_def, Nat.mul_comm]

/-- The literals of the formula's variables are on the finishing stack once each. -/
lemma Represents.finished_perm (h : Represents g f) (hn : g.Numbered t)
    (hvis : ∀ l, t.visited l = true ↔ l ∈ g.vertices) : t.finished.Perm (literals f) := by
  have hnodup : t.finished.Nodup := by
    simpa using hn.settled.nodup
  refine (List.perm_ext_iff_of_nodup hnodup (nodup_literals f)).mpr ?_
  intro l
  rw [h.mem_finished_iff hn hvis, mem_literals_iff]

/-- The value of a variable by the component numbers tells which of its literals has the smaller
number. -/
lemma Represents.exists_componentValue (h : Represents g f)
    (hvis : ∀ l, t.visited l = true ↔ l ∈ g.vertices) {v : Variable}
    (hv : v.index ≤ f.numVariables) :
    ∃ i j, t.labels.find? ⟨v, false⟩ = some i ∧ t.labels.find? ⟨v, true⟩ = some j ∧
      componentValue t.labels v = decide (i < j) := by
  obtain ⟨⟨i, hi⟩, j, hj⟩ := h.exists_numbers hvis (l := ⟨v, false⟩) hv
  have hj : t.labels.find? ⟨v, true⟩ = some j := hj
  exact ⟨i, j, hi, hj, by simp [componentValue, hi, hj]⟩

/-- If the method gives an assignment, this has for each variable the value of the variable's lowest
literal on the finishing stack, which is written last, and it is the value that the component numbers
tell, where both literals of the variable have numbers. The stack has each literal of the formula's
variables once and no others. -/
theorem solve_readings {a : Assignment} (hf : f.InRange) (hsize : ∀ c ∈ f.clauses, c.size = 2)
    (ha : (solve f).result = .ok a) :
    ∃ g, implicationGraph f = .ok g ∧
      let e := (Explored.fresh g).components
      (∀ v : Variable, v.index ≤ f.numVariables →
        a.read v.place = .ok (componentValue e.2 v) ∧
        (∃ i j, e.2.find? ⟨v, false⟩ = some i ∧ e.2.find? ⟨v, true⟩ = some j ∧
          componentValue e.2 v = decide (i < j)) ∧
        ∃ l, e.1.stack.find? (fun k => k.var = v) = some l ∧ a.read v.place = .ok l.value) ∧
      e.1.stack.length = 2 * f.numVariables ∧
      ∀ l, e.1.stack.count l = if l.var.index ≤ f.numVariables then 1 else 0 := by
  obtain ⟨g, hok, h⟩ := represents_of_size hf hsize
  obtain ⟨hn, hvis⟩ := Graph.components_numbered h.built.closed
  have hc : f.vars.any (clashes g.components.labels) = false := by
    by_contra hclash
    rw [result_of_clash hok (by simpa using hclash)] at ha
    cases ha
  obtain ⟨a', ha', hlen, hval⟩ := h.result_of_not_clash hok hc
  rw [ha] at ha'
  cases ha'
  have hperm := h.finished_perm hn hvis
  -- the numbering of a graph that was never explored is the one that the method uses
  have hlabels : (Explored.fresh g).components.2 = g.components.labels := rfl
  have hstack : (Explored.fresh g).components.1.stack = g.components.finished := rfl
  refine ⟨g, hok, ?_, ?_, ?_⟩
  · intro v hv
    have hread : a.read v.place = .ok (componentValue g.components.labels v) := by
      rw [Assignment.read_place (hlen ▸ Variable.place_lt hv), hval,
        h.updateAll_finished hn hvis hc hv]
    obtain ⟨l, hl, rfl, hholds⟩ := h.find?_finished hn hvis hc hv
    rw [hlabels, hstack]
    exact ⟨hread, h.exists_componentValue hvis hv, l, hl, hread.trans (congrArg _ hholds)⟩
  · rw [hstack, hperm.length_eq, length_literals]
  · intro l
    rw [hstack, hperm.count_eq, (nodup_literals f).count]
    simp only [mem_literals_iff]

/-- Both variables of the chain are true in the solution and by the numbers. Its stack has the four
literals of the two variables. -/
theorem solve_readings_chained :
    (solve chained.toCnf).result = .ok [true, true] ∧
    ∃ g, implicationGraph chained.toCnf = .ok g ∧
      let e := (Explored.fresh g).components
      componentValue e.2 (.ofPlace 0) = true ∧ componentValue e.2 (.ofPlace 1) = true ∧
      e.1.stack.length = 4 ∧ e.1.stack.count ⟨.ofPlace 1, true⟩ = 1 := by
  have hf : chained.toCnf.InRange := built_chained.coherent.inRange
  have hsize : ∀ c ∈ chained.toCnf.clauses, c.size = 2 := by decide
  obtain ⟨hresult, hunsat⟩ := (solve_spec hf hsize).check hf
  -- no other assignment passes the check
  have honly : ∀ a : Assignment, a.length = 2 → chained.toCnf.check a = .ok true →
      a = [true, true] := by
    intro a hlen hpass
    obtain ⟨x, y, rfl⟩ := List.length_eq_two.mp hlen
    revert x y
    decide
  have ha : (solve chained.toCnf).result = .ok [true, true] := by
    rcases hresult with ⟨a, ha, hlen, hpass⟩ | herr
    · rw [ha, honly a hlen hpass]
    · have hfail := hunsat.mp herr [true, true] rfl
      cases hfail
  obtain ⟨g, hg, hread, hlen, hcount⟩ := solve_readings hf hsize ha
  refine ⟨ha, g, hg, ?_, ?_, hlen, hcount _⟩
  · have h := (hread (.ofPlace 0) (by decide)).1
    exact (Except.ok.inj h).symm
  · have h := (hread (.ofPlace 1) (by decide)).1
    exact (Except.ok.inj h).symm

end Clausal.Solver.TwoSat
