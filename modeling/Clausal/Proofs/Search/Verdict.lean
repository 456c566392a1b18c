import Clausal.Proofs.Answer
import Clausal.Proofs.Construction
import Clausal.Proofs.Search.Branches

/-!
# The verdict of the search

Main statement: the search decides satisfiability. It gives an assignment that passes the check, or
the error that none exists, and the error exactly if every assignment of the variables fails
(`solve_decides`).
-/

namespace Clausal.Solver.Search

/-- An assignment written from a model has the values of the model, and false for the others. -/
lemma valuation_of_writeAll {n : Nat} {m : Model} (hm : ∀ v x, m.find? v = some x → v.index ≤ n) :
    ∃ a, writeAll (Assignment.allFalse n) m.entries = .ok a ∧ a.length = n ∧
      ∀ v, a.valuation v = (m.find? v).getD false := by
  have hplace : ∀ e ∈ m.entries, e.1.place < (Assignment.allFalse n).length := by
    intro e he
    have hkey : e.1 ∈ m.keys := List.mem_map_of_mem he
    obtain ⟨x, hx⟩ := Option.isSome_iff_exists.mp ((m.isSome_find?_iff e.1).mpr hkey)
    simpa [Assignment.allFalse] using Variable.place_lt (hm e.1 x hx)
  obtain ⟨a, hok, hlen, hval⟩ := writeAll_eq_ok hplace
  refine ⟨a, hok, by simpa [Assignment.allFalse] using hlen, ?_⟩
  intro v
  rw [hval, Valuation.updateAll_lookup m.nodup, Assignment.valuation_allFalse]
  rfl

/-- An assignment written from a model extends the model. -/
lemma extendedBy_of_writeAll {n : Nat} {m : Model} (hm : ∀ v x, m.find? v = some x → v.index ≤ n) :
    ∃ a, writeAll (Assignment.allFalse n) m.entries = .ok a ∧ a.length = n ∧
      m.ExtendedBy a.valuation := by
  obtain ⟨a, hok, hlen, hval⟩ := valuation_of_writeAll hm
  refine ⟨a, hok, hlen, ?_⟩
  intro v x hx
  rw [hval, hx, Option.getD_some]

/-- The search of a formula that keeps to its variables finds a solution and reports the moves made,
or it finds that there is none. -/
lemma solve_eq_of_inRange {f : Cnf} (hf : f.InRange) :
    (∃ a, ∃ k : Counts, solve f = ⟨[.modelFound k.decisions k.forced], .ok a⟩ ∧
      a.length = f.numVariables ∧ f.Holds a.valuation) ∨
    solve f = .silent (.error (.unsatisfiable .general)) ∧ ¬ f.Satisfiable := by
  have hstart : ∀ b ∈ [(⟨f.vars, OrderedMap.empty⟩ : Branch)], b.Proper f.numVariables := by
    intro b hb
    rw [List.mem_singleton] at hb
    exact hb ▸ Branch.Proper.start f.numVariables
  rcases run_spec hf ⟨0, 0⟩ _ hstart with ⟨m, counts, hrun, htrue, hle⟩ | ⟨hrun, hnone⟩
  · obtain ⟨a, hok, hlen, hext⟩ := extendedBy_of_writeAll hle
    refine .inl ⟨a, counts, by simp [solve, hrun, hok], hlen, ?_⟩
    intro c hc
    exact hext.holds_of_true (htrue c hc)
  · refine .inr ⟨by simp [solve, hrun], ?_⟩
    rintro ⟨σ, hσ⟩
    exact hnone _ List.mem_cons_self ⟨σ, Model.extendedBy_empty σ, hσ⟩

/-- The search decides every formula that keeps to its variables. -/
lemma solve_spec {f : Cnf} (hf : f.InRange) :
    f.Decides (.unsatisfiable .general) (solve f).result := by
  rcases solve_eq_of_inRange hf with ⟨a, k, hsolve, hlen, hholds⟩ | ⟨hsolve, hnone⟩
  · rw [hsolve]
    exact .found hlen hholds
  · rw [hsolve]
    exact .refuted hnone

/-- The search decides satisfiability: it gives an assignment of the variables that passes the check
or reports that there is none, and reports it exactly if every assignment fails the check. -/
theorem solve_decides {n : Nat} {W : Workspace} (h : W.Built n) :
    ((∃ a, (solve W.toCnf).result = .ok a ∧ a.length = n ∧ W.toCnf.check a = .ok true) ∨
      (solve W.toCnf).result = .error (.unsatisfiable .general)) ∧
    ((solve W.toCnf).result = .error (.unsatisfiable .general) ↔
      ∀ a : Assignment, a.length = n → W.toCnf.check a = .ok false) := by
  have hf := h.coherent.inRange
  have hn : W.toCnf.numVariables = n := h.coherent.numVariables_eq
  have hcheck := (solve_spec hf).check hf
  rwa [hn] at hcheck

/-- The four clauses over two variables and a tautology, with one of the clauses added twice. -/
def fourClauses : Workspace where
  arena := ⟨#[.ofInts [1, 2], .ofInts [-1, 2], .ofInts [2, -2], .ofInts [1, -2], .ofInts [-1, -2]]⟩
  formula := {
    numVariables := 2
    refs := [0, 1, 0, 2, 3, 4]
    queue := []
    register := [(.ofPlace 0, 1), (.ofPlace 1, 2), (.ofPlace 1, 3), (.ofPlace 0, 4), (.ofPlace 1, 4)] }

/-- The four clauses can be added one after the other. -/
lemma built_fourClauses : fourClauses.Built 2 := by
  have h := Workspace.Prepared.start (n := 2) fourClauses.arena
  have h := h.add (r := 0) (by decide) rfl
  have h := h.add (r := 1) (by decide) rfl
  have h := h.add (r := 0) (by decide) rfl
  have h := h.add (r := 2) (by decide) rfl
  have h := h.add (r := 3) (by decide) rfl
  exact h.add (r := 4) (by decide) rfl

/-- The search reports that the four clauses over two variables exclude each other. -/
theorem solve_decides_fourClauses :
    fourClauses.Built 2 ∧
      (solve fourClauses.toCnf).result = .error (.unsatisfiable .general) := by
  refine ⟨built_fourClauses, (solve_decides built_fourClauses).2.mpr ?_⟩
  intro a ha
  obtain ⟨x, y, rfl⟩ := List.length_eq_two.mp ha
  cases x <;> cases y <;> rfl

end Clausal.Solver.Search
