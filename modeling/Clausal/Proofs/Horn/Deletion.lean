import Clausal.Proofs.Horn.Meaning
import Mathlib.Algebra.Order.BigOperators.Group.Finset

/-!
# Literals deleted by propagation

What a propagation that finds an assignment does to the formula, to the letter. Main statements: the
literals that it counts are those by which the clauses get shorter, where a clause that was added
several times counts once (`totalSize_propagate`), and it empties the queue and deletes exactly the
negations of the variables that it makes true (`solve_deletes`).
-/

namespace Clausal

/-- The number of literals in the clauses of a formula. A clause that was added several times counts
once. -/
def Workspace.totalSize (W : Workspace) : Nat :=
  ∑ r ∈ W.formula.refs.toFinset, (W.arena.get r).size

/-- Removing a literal makes a clause that has it shorter by one. -/
lemma Clause.size_erase {c : Clause} {l : Literal} (h : l ∈ c) : (c.erase l).size + 1 = c.size := by
  have hlen := List.length_erase_of_mem (mem_literals.mpr h)
  have hpos := List.length_pos_of_mem (mem_literals.mpr h)
  simp only [size, erase]
  omega

/-- What is left of a clause is no longer than the clause. -/
lemma Clause.size_residue_le (σ : Valuation) (c : Clause) : (c.residue σ).size ≤ c.size :=
  List.length_filter_le _ _

/-- A formula whose queue is replaced differs from another one in the queue only, if this has the same
clauses and the same register. -/
lemma Formula.eq_withQueue {F G : Formula} {q : List Variable}
    (hn : G.numVariables = F.numVariables) (hrefs : G.refs = F.refs)
    (hregister : G.register = F.register) (hq : G.queue = q) : G = { F with queue := q } := by
  cases G
  cases hn
  cases hrefs
  cases hregister
  cases hq
  rfl

namespace Solver.Horn

open Workspace

variable {n : Nat} {W W' : Workspace} {v : Variable} {a : Assignment}

/-! ### Counting -/

/-- Every clause that is registered for a negation is a clause of the formula. -/
def Registers (W : Workspace) : Prop := ∀ v, ∀ r ∈ W.formula.withNegation v, r ∈ W.formula.refs

/-- Clauses that lose literals stay clauses of the formula and stay registered. -/
lemma Registers.of_trimmed (h : Registers W) (ht : Trimmed W W') : Registers W' := by
  intro v r hr
  rw [Formula.withNegation, ht.register_eq, ← Formula.withNegation] at hr
  rw [ht.refs_eq]
  exact h v r hr

/-- Striking a literal out of a clause of the formula makes the clauses shorter by one. -/
lemma totalSize_strikeOne {r : ClauseRef} (hr : r ∈ W.formula.refs)
    (hv : ⟨v, true⟩ ∈ W.arena.get r) : (strikeOne v W r).totalSize + 1 = W.totalSize := by
  have hmem : r ∈ W.formula.refs.toFinset := List.mem_toFinset.mpr hr
  have hget : ∀ s, (strikeOne v W r).arena.get s =
      if s = r then (W.arena.get s).erase ⟨v, true⟩ else W.arena.get s :=
    fun s => get_strikeOne (Arena.lt_of_mem_get hv)
  have hrefs : (strikeOne v W r).formula.refs = W.formula.refs := note_refs _ _ _
  -- the clause struck is taken out of both sums, and the other clauses are the same
  have hothers : ∑ s ∈ W.formula.refs.toFinset.erase r, ((strikeOne v W r).arena.get s).size =
      ∑ s ∈ W.formula.refs.toFinset.erase r, (W.arena.get s).size := by
    apply Finset.sum_congr rfl
    intro s hs
    rw [hget, if_neg (Finset.ne_of_mem_erase hs)]
  have hstruck : ((strikeOne v W r).arena.get r).size + 1 = (W.arena.get r).size := by
    rw [hget, if_pos rfl]
    exact Clause.size_erase hv
  rw [totalSize, totalSize, hrefs, ← Finset.add_sum_erase _ _ hmem, ← Finset.add_sum_erase _ _ hmem,
    hothers]
  omega

/-- What striking out counts are the literals by which the clauses get shorter. -/
lemma totalSize_strike {rs : List ClauseRef} {k k' : Nat} (hrs : ∀ r ∈ rs, r ∈ W.formula.refs)
    (h : strike v W k rs = (W', .ok k')) : k' + W'.totalSize = k + W.totalSize := by
  induction rs generalizing W k with
  | nil =>
    cases h
    rfl
  | cons r rest ih =>
    obtain ⟨hr, hrest⟩ := List.forall_mem_cons.mp hrs
    rw [strike_cons] at h
    split at h
    · exact ih hrest h
    next hv =>
    split at h
    · cases h
    · have hrefs : (strikeOne v W r).formula.refs = W.formula.refs := note_refs _ _ _
      rw [ih (hrefs ▸ hrest) h, ← totalSize_strikeOne hr (not_not.mp hv)]
      omega

/-- What propagation counts are the literals by which the clauses get shorter. -/
lemma totalSize_propagate {k k' : Nat} {a' : Assignment} (hreg : Registers W)
    (h : propagate W a k = (W', .ok (a', k'))) : k' + W'.totalSize = k + W.totalSize := by
  fun_induction propagate W a k with
  | case1 W a k hq =>
    cases h
    rfl
  | case2 W a k v rest hq W₁ hnone => cases (Prod.mk.inj h).2
  | case3 W a k v rest hq W₁ htrue ih =>
    exact ih (hreg.of_trimmed (trimmed_withQueue W rest)) h
  | case4 W a k v rest hq W₁ hfalse W₂ e hs => cases h
  | case5 W a k v rest hq W₁ hfalse W₂ k₂ hs ih =>
    have hreg₁ : Registers W₁ := hreg.of_trimmed (trimmed_withQueue W rest)
    have htrimmed := trimmed_strike_withNegation v W₁ k
    rw [hs] at htrimmed
    rw [ih (hreg₁.of_trimmed htrimmed) h, totalSize_strike (hreg₁ v) hs]
    rfl

/-! ### Deleting -/

/-- An assignment that is found is the one that the propagation ends with, and so is the count that
is reported with it. -/
lemma exists_propagate_of_solve (h : (solve W).2.result = .ok a) :
    ∃ k, propagate W (Assignment.allFalse W.formula.numVariables) 0 = ((solve W).1, .ok (a, k)) ∧
      (solve W).2.events = [.propagated k (a.count true)] := by
  unfold solve at h ⊢
  split at h
  · cases h
  · next hempty =>
    rw [if_neg hempty]
    split at h
    · cases h
    · next hp =>
      cases h
      rw [hp]
      exact ⟨_, rfl, rfl⟩

/-- If propagation finds an assignment for a formula of any shape, it leaves the formula as it was but
for the queue, which is empty, and for the clauses. Each of these has lost the negations of the
variables that are true, has all its other literals in their order, and is not empty; clauses that
are not clauses of the formula are left alone. What is reported is the number of the literals lost,
where a clause that was added several times counts once, and of the variables that are true. -/
theorem solve_deletes (h : W.Built n) (ha : (solve W).2.result = .ok a) :
    let left := (solve W).1
    left.formula = { W.formula with queue := [] } ∧ a.length = n ∧
    (∀ r ∈ W.formula.refs,
      (left.arena.get r).literals =
        (W.arena.get r).literals.filter (fun l => !(l.negated && a.valuation l.var)) ∧
      (∀ l ∈ W.arena.get r, l.negated = false → l ∈ left.arena.get r) ∧
      (left.arena.get r).literals ≠ []) ∧
    (∀ r, r ∉ W.formula.refs → left.arena.get r = W.arena.get r) ∧
    (solve W).2.events = [.propagated
      (∑ r ∈ W.formula.refs.toFinset, ((W.arena.get r).size - (left.arena.get r).size))
      (a.count true)] := by
  have htrimmed := trimmed_solve W
  rcases solve_spec h.coherent h.mem_queue_of_fact? with ⟨a', hok, hend, hq⟩ | ⟨herr, -⟩
  · obtain rfl : a' = a := Except.ok.inj (hok.symm.trans ha)
    have hget : ∀ r ∈ W.formula.refs,
        (solve W).1.arena.get r = (W.arena.get r).residue a'.valuation := by
      intro r hr
      exact hend.get_eq r (hend.refs_eq ▸ hr)
    refine ⟨?_, hend.length_eq, ?_, ?_, ?_⟩
    · exact Formula.eq_withQueue htrimmed.numVariables_eq hend.refs_eq hend.register_eq hq
    · intro r hr
      refine ⟨by rw [hget r hr, Clause.residue], ?_, hend.ne_nil r (hend.refs_eq ▸ hr)⟩
      intro l hl hpos
      rw [hget r hr, Clause.mem_residue]
      refine ⟨hl, ?_⟩
      intro hneg
      rw [hpos] at hneg
      cases hneg
    · intro r hr
      apply htrimmed.get_eq
      intro v hv
      exact hr (h.coherent.ref_of_registered v r hv)
    · obtain ⟨k, hp, hevents⟩ := exists_propagate_of_solve ha
      have hreg : Registers W := fun v r hr =>
        h.coherent.ref_of_registered v r (Formula.mem_withNegation.mp hr)
      have hcount := totalSize_propagate hreg hp
      have hle : ∀ r ∈ W.formula.refs.toFinset,
          ((solve W).1.arena.get r).size ≤ (W.arena.get r).size := by
        intro r hr
        rw [hget r (List.mem_toFinset.mp hr)]
        exact Clause.size_residue_le _ _
      rw [hevents, Finset.sum_tsub_distrib _ hle]
      rw [totalSize, totalSize, hend.refs_eq] at hcount
      congr 2
      omega
  · rw [ha] at herr
    cases herr

/-- In the example the implication that was added twice loses one literal, and this counts once. The
clause of two negations is left as it is, although it is false. -/
theorem solve_deletes_twoHeads :
    twoHeads.Built 3 ∧ (solve twoHeads).2.result = .ok [true, false, false] ∧
    (solve twoHeads).1.formula = struckHeads.formula ∧
    ((solve twoHeads).1.arena.get 1).toInts = [2, 3] ∧
    ((solve twoHeads).1.arena.get 2).toInts = [-2, -3] ∧
    (solve twoHeads).2.events = [.propagated 1 1] := by
  have hfound : (solve twoHeads).2.result = .ok [true, false, false] := by rw [solve_twoHeads]
  obtain ⟨hformula, -, hclauses, -, hevents⟩ := solve_deletes built_twoHeads hfound
  obtain ⟨hfact, -⟩ := hclauses 0 (by decide)
  obtain ⟨himplied, -⟩ := hclauses 1 (by decide)
  obtain ⟨hexclusive, -⟩ := hclauses 2 (by decide)
  refine ⟨built_twoHeads, hfound, hformula, ?_, ?_, ?_⟩
  · rw [Clause.toInts, himplied]
    decide
  · rw [Clause.toInts, hexclusive]
    decide
  · have hrefs : twoHeads.formula.refs.toFinset = {0, 1, 2} := by decide
    rw [hevents, hrefs]
    simp only [Clause.size]
    rw [Finset.sum_insert (by decide), Finset.sum_insert (by decide), Finset.sum_singleton, hfact,
      himplied, hexclusive]
    rfl

end Solver.Horn

end Clausal
