import Clausal.Proofs.Horn.Verdict
import Clausal.Proofs.Search.Verdict
import Clausal.Proofs.TwoSat.Verdict

/-!
# What propagation leaves of a formula

Propagation changes the clauses in place, and leaves some of them changed when it comes to a
contradiction. Whatever it comes to, it has only taken literals away, and only from clauses that are
registered (`trimmed_solve`). Main statement: a formula of any shape that was built by adding
clauses has the same solutions after the propagation as before it, and what the propagation found
out about it is right, although the assignment found need not be a solution (`solve_keeps_meaning`).
-/

namespace Clausal

/-- A reference to a clause with a literal is one of the arena. -/
lemma Arena.lt_of_mem_get {A : Arena} {r : ClauseRef} {l : Literal} (h : l ∈ A.get r) :
    r < A.slots.size := by
  by_contra hr
  have hnone : A.slots[r]? = none := Array.getElem?_eq_none (Nat.not_lt.mp hr)
  simp [Arena.get, hnone, Clause.empty, ← Clause.mem_literals] at h

/-- Adding clauses puts nothing on the queue that does not follow from them. -/
lemma Workspace.Built.admits_iff {n : Nat} {W : Workspace} (h : W.Built n) {σ : Valuation} :
    W.Admits σ ↔ W.toCnf.Holds σ := by
  have hadm := Prepared.admits_iff h (σ := σ)
  simpa [Cnf.holds_withFacts_iff] using hadm

namespace Solver.Horn

open Workspace

/-! ### Literals taken away -/

/-- The second formula is the first one with literals taken away from registered clauses. -/
structure Trimmed (W W' : Workspace) : Prop where
  numVariables_eq : W'.formula.numVariables = W.formula.numVariables
  refs_eq : W'.formula.refs = W.formula.refs
  register_eq : W'.formula.register = W.formula.register
  size_eq : W'.arena.slots.size = W.arena.slots.size
  mem_of_mem : ∀ r l, l ∈ W'.arena.get r → l ∈ W.arena.get r
  get_eq : ∀ r, (∀ v, (v, r) ∉ W.formula.register) → W'.arena.get r = W.arena.get r

/-- A formula from which nothing is taken away is trimmed. -/
lemma Trimmed.refl (W : Workspace) : Trimmed W W where
  numVariables_eq := rfl
  refs_eq := rfl
  register_eq := rfl
  size_eq := rfl
  mem_of_mem := fun _ _ hl => hl
  get_eq := fun _ _ => rfl

/-- Literals may be taken away in several steps. -/
lemma Trimmed.trans {W W' W'' : Workspace} (h : Trimmed W W') (h' : Trimmed W' W'') :
    Trimmed W W'' where
  numVariables_eq := h'.numVariables_eq.trans h.numVariables_eq
  refs_eq := h'.refs_eq.trans h.refs_eq
  register_eq := h'.register_eq.trans h.register_eq
  size_eq := h'.size_eq.trans h.size_eq
  mem_of_mem := fun r l hl => h.mem_of_mem r l (h'.mem_of_mem r l hl)
  get_eq := by
    intro r hr
    rw [h'.get_eq r (h.register_eq ▸ hr), h.get_eq r hr]

/-- Another queue takes no literals away. -/
lemma trimmed_withQueue (W : Workspace) (q : List Variable) : Trimmed W (W.withQueue q) where
  numVariables_eq := rfl
  refs_eq := rfl
  register_eq := rfl
  size_eq := rfl
  mem_of_mem := fun _ _ hl => hl
  get_eq := fun _ _ => rfl

/-- Striking a negation out of a clause registered for it takes this literal away. -/
lemma trimmed_strikeOne {v : Variable} {W : Workspace} {r : ClauseRef}
    (hr : (v, r) ∈ W.formula.register) (hv : ⟨v, true⟩ ∈ W.arena.get r) :
    Trimmed W (strikeOne v W r) where
  numVariables_eq := note_numVariables _ _ _
  refs_eq := note_refs _ _ _
  register_eq := note_register _ _ _
  size_eq := by simp [strikeOne, Arena.modify]
  mem_of_mem := by
    intro s l hl
    rw [get_strikeOne (Arena.lt_of_mem_get hv)] at hl
    split at hl
    · exact (Clause.mem_erase.mp hl).1
    · exact hl
  get_eq := by
    intro s hs
    have hne : s ≠ r := fun e => hs v (e ▸ hr)
    rw [get_strikeOne (Arena.lt_of_mem_get hv), if_neg hne]

/-- Striking out takes literals away, also if it comes to a contradiction. -/
lemma trimmed_strike {v : Variable} {W : Workspace} {rs : List ClauseRef} (removed : Nat)
    (h : ∀ r ∈ rs, (v, r) ∈ W.formula.register) : Trimmed W (strike v W removed rs).1 := by
  induction rs generalizing W removed with
  | nil => exact .refl W
  | cons r rest ih =>
    obtain ⟨hr, hrest⟩ := List.forall_mem_cons.mp h
    rw [strike_cons]
    split
    · exact ih removed hrest
    · next hv =>
      split
      · exact .refl W
      · have hone := trimmed_strikeOne hr (not_not.mp hv)
        exact hone.trans (ih (removed + 1) (hone.register_eq ▸ hrest))

/-- Striking out of the clauses registered for a variable takes literals away. -/
lemma trimmed_strike_withNegation (v : Variable) (W : Workspace) (removed : Nat) :
    Trimmed W (strike v W removed (W.formula.withNegation v)).1 := by
  apply trimmed_strike
  intro r hr
  exact Formula.mem_withNegation.mp hr

/-- Propagation takes literals away, also if it comes to a contradiction. -/
lemma trimmed_propagate (W : Workspace) (a : Assignment) (removed : Nat) :
    Trimmed W (propagate W a removed).1 := by
  fun_induction propagate W a removed with
  | case1 W a removed hq => exact .refl W
  | case2 W a removed v rest hq W₁ hnone => exact trimmed_withQueue W rest
  | case3 W a removed v rest hq W₁ htrue ih => exact (trimmed_withQueue W rest).trans ih
  | case4 W a removed v rest hq W₁ hfalse W₂ e hs =>
    have hstrike := trimmed_strike_withNegation v W₁ removed
    rw [hs] at hstrike
    exact (trimmed_withQueue W rest).trans hstrike
  | case5 W a removed v rest hq W₁ hfalse W₂ k hs ih =>
    have hstrike := trimmed_strike_withNegation v W₁ removed
    rw [hs] at hstrike
    exact ((trimmed_withQueue W rest).trans hstrike).trans ih

/-- The Horn method does no more to the clauses than taking literals away. -/
lemma trimmed_solve (W : Workspace) : Trimmed W (solve W).1 := by
  have h := trimmed_propagate W (Assignment.allFalse W.formula.numVariables) 0
  unfold solve
  split
  · exact .refl W
  · split
    · next hp => rwa [hp] at h
    · next hp => rwa [hp] at h

/-- Taking literals away continues the arena. -/
lemma Trimmed.continues {W W' : Workspace} (h : Trimmed W W') :
    W.arena.Continues W'.arena where
  size_le := Nat.le_of_eq h.size_eq.symm
  mem_of_mem := fun r _ l hl => h.mem_of_mem r l hl

/-- A clause with literals taken away says more than the clause. -/
lemma Trimmed.holds {W W' : Workspace} {σ : Valuation} (h : Trimmed W W')
    (hσ : W'.toCnf.Holds σ) : W.toCnf.Holds σ := by
  rw [holds_toCnf_iff] at hσ ⊢
  intro r hr
  obtain ⟨l, hl, ht⟩ := hσ r (h.refs_eq ▸ hr)
  exact ⟨l, h.mem_of_mem r l hl, ht⟩

/-- Clauses with literals taken away keep to the variables. -/
lemma Trimmed.inRange {W W' : Workspace} (h : Trimmed W W') (hW : W.toCnf.InRange) :
    W'.toCnf.InRange := by
  intro c hc l hl
  obtain ⟨r, hr, rfl⟩ := List.mem_map.mp hc
  show l.var.index ≤ W'.formula.numVariables
  rw [h.numVariables_eq]
  exact hW _ (List.mem_map_of_mem (h.refs_eq ▸ hr)) l (h.mem_of_mem r l hl)

/-! ### Solutions kept -/

variable {n : Nat} {W : Workspace}

/-- Propagation keeps the solutions of a formula built by adding clauses. -/
lemma solve_holds_iff (h : W.Built n) {σ : Valuation} :
    (solve W).1.toCnf.Holds σ ↔ W.toCnf.Holds σ := by
  constructor
  · exact (trimmed_solve W).holds
  · intro hσ
    have hadm : W.Admits σ := h.admits_iff.mpr hσ
    rcases solve_spec h.coherent h.mem_queue_of_fact? with ⟨a, -, hend, -⟩ | ⟨-, hnone⟩
    · -- only negations of variables that are true in all solutions were taken away
      rw [holds_toCnf_iff]
      intro r hr
      exact hend.holds_get hadm hr
    · exact absurd hadm (hnone σ)

/-- What propagation leaves of a formula of any shape has the solutions that the formula had. If it
reports that there is none, this is right, and otherwise the variables that it made true are true in
every solution. So the search comes to the same verdict before and after, and so does the method for
two-literal clauses where it can be applied. -/
theorem solve_keeps_meaning (h : W.Built n) :
    let result := (solve W).2.result
    let left := (solve W).1.toCnf
    (left.numVariables = n ∧ ∀ a : Assignment, a.length = n →
      (left.check a = .ok true ↔ W.toCnf.check a = .ok true)) ∧
    ((result = .error (.unsatisfiable .horn) ∧
        ∀ a : Assignment, a.length = n → W.toCnf.check a = .ok false) ∨
      ∃ a, result = .ok a ∧ a.length = n ∧
        ∀ v : Variable, v.index ≤ n → a.read v.place = .ok true →
          ∀ b : Assignment, b.length = n → W.toCnf.check b = .ok true →
            b.read v.place = .ok true) ∧
    Cnf.SameVerdict (Search.solve left).result (Search.solve W.toCnf).result ∧
    ((∀ c ∈ left.clauses, c.size = 2) →
      Cnf.SameVerdict (TwoSat.solve left).result (Search.solve W.toCnf).result ∧
      ((∀ c ∈ W.toCnf.clauses, c.size = 2) →
        Cnf.SameVerdict (TwoSat.solve left).result (TwoSat.solve W.toCnf).result)) := by
  have hf := h.coherent.inRange
  have hn : W.toCnf.numVariables = n := h.coherent.numVariables_eq
  have hl : (solve W).1.toCnf.InRange := (trimmed_solve W).inRange hf
  have hln : (solve W).1.toCnf.numVariables = n := (trimmed_solve W).numVariables_eq.trans hn
  have hsat : (solve W).1.toCnf.Satisfiable ↔ W.toCnf.Satisfiable :=
    exists_congr fun σ => solve_holds_iff h
  refine ⟨⟨hln, ?_⟩, ?_, ?_, ?_⟩
  · intro a ha
    rw [Cnf.check_eq_true_iff hl (by omega), Cnf.check_eq_true_iff hf (by omega),
      solve_holds_iff h]
  · rcases solve_spec h.coherent h.mem_queue_of_fact? with ⟨a, hok, hend, -⟩ | ⟨herr, hnone⟩
    · refine .inr ⟨a, hok, hend.length_eq, ?_⟩
      intro v hv htrue b hb hpass
      rw [Assignment.read_eq_true_iff (hend.length_eq ▸ Variable.place_lt hv)] at htrue
      rw [Assignment.read_eq_true_iff (hb ▸ Variable.place_lt hv)]
      have hσ := (Cnf.check_eq_true_iff hf (by omega)).mp hpass
      exact hend.forced b.valuation (h.admits_iff.mpr hσ) v (.inr htrue)
    · refine .inl ⟨herr, ?_⟩
      intro a ha
      rw [Cnf.check_eq_false_iff hf (by omega), ← h.admits_iff]
      exact hnone _
  · exact (Search.solve_spec hl).sameVerdict (Search.solve_spec hf) hsat
  · intro hsize
    refine ⟨(TwoSat.solve_spec hl hsize).sameVerdict (Search.solve_spec hf) hsat, ?_⟩
    intro hsize'
    exact (TwoSat.solve_spec hl hsize).sameVerdict (TwoSat.solve_spec hf hsize') hsat

/-- A fact that implies one of two variables, with the implication added twice, and only one of the
two can be true. -/
def twoHeads : Workspace where
  arena := ⟨#[.ofInts [1], .ofInts [-1, 2, 3], .ofInts [-2, -3]]⟩
  formula := {
    numVariables := 3
    refs := [0, 1, 2, 1]
    queue := [.ofPlace 0]
    register := [(.ofPlace 0, 1), (.ofPlace 1, 2), (.ofPlace 2, 2), (.ofPlace 0, 1)] }

/-- The example was built by adding its clauses, the implication twice. -/
lemma built_twoHeads : twoHeads.Built 3 := by
  have h := Prepared.start (n := 3) twoHeads.arena
  have h := h.add (r := 0) (by decide) rfl
  have h := h.add (r := 1) (by decide) rfl
  have h := h.add (r := 2) (by decide) rfl
  exact h.add (r := 1) (by decide) rfl

/-- The example after the fact was struck out of the implication. -/
def struckHeads : Workspace where
  arena := ⟨#[.ofInts [1], .ofInts [2, 3], .ofInts [-2, -3]]⟩
  formula := { twoHeads.formula with queue := [] }

/-- Propagation strikes the fact out of the implication of the example, and makes only its variable
true. -/
lemma propagate_twoHeads :
    propagate twoHeads (Assignment.allFalse 3) 0 = (struckHeads, .ok ([true, false, false], 1)) := by
  have hdone : propagate struckHeads [true, false, false] 1 =
      (struckHeads, .ok ([true, false, false], 1)) := by
    rw [propagate]
    rfl
  rw [propagate]
  exact hdone

/-- The Horn method ends with what propagation finds in the example. -/
lemma solve_twoHeads :
    solve twoHeads = (struckHeads, ⟨[.propagated 1 1], .ok [true, false, false]⟩) := by
  have hnone : (twoHeads.formula.clauses twoHeads.arena).any (·.literals.isEmpty) = false := rfl
  have hsize : twoHeads.formula.numVariables = 3 := rfl
  simp [solve, hnone, hsize, propagate_twoHeads]

/-- In the example the fact is true in every solution, and the solutions are left, although what
propagation finds is none of them. -/
theorem solve_keeps_meaning_twoHeads :
    twoHeads.Built 3 ∧
    (solve twoHeads).1.toCnf.check [true, false, true] = .ok true ∧
    (∀ b : Assignment, b.length = 3 → twoHeads.toCnf.check b = .ok true → b.read 0 = .ok true) ∧
    ∃ a, (solve twoHeads).2.result = .ok a ∧ twoHeads.toCnf.check a = .ok false := by
  have hfound : (solve twoHeads).2.result = .ok [true, false, false] := by rw [solve_twoHeads]
  obtain ⟨⟨-, hsame⟩, hresult, -⟩ := solve_keeps_meaning built_twoHeads
  refine ⟨built_twoHeads, (hsame [true, false, true] rfl).mpr rfl, ?_, _, hfound, rfl⟩
  rcases hresult with ⟨herr, -⟩ | ⟨a, hok, -, hforced⟩
  · rw [hfound] at herr
    cases herr
  · rw [hfound] at hok
    cases hok
    exact hforced (.ofPlace 0) (by decide) rfl

end Solver.Horn

end Clausal
