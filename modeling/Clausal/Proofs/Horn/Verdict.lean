import Clausal.Proofs.Horn.Propagation
import Mathlib.Data.List.Basic

/-!
# The verdict of the propagation

The result of the propagation depends on the clauses and on the variables on the queue only
(`result_solve_eq`). Main statement: for a Horn formula whose callers have put some variables on the
queue, it is the least solution in which these variables are true, or the report that there is none
(`solve_least`). At the end of the propagation every clause is true, because what is left of it has a
negated literal whose variable is false, or it is a fact (`Propagating.admits`).
-/

namespace Clausal

/-- The clause that states a fact. -/
def Clause.fact (v : Variable) : Clause := ⟨[⟨v, false⟩], List.pairwise_singleton _ _⟩

/-- The formula with further facts. -/
def Cnf.withFacts (f : Cnf) (vs : List Variable) : Cnf :=
  ⟨f.numVariables, f.clauses ++ vs.map Clause.fact⟩

/-- A fact is true if its variable is. -/
lemma Clause.holds_fact_iff {σ : Valuation} {v : Variable} :
    (Clause.fact v).Holds σ ↔ σ v = true := by
  constructor
  · exact Clause.eq_true_of_fact? rfl
  · intro h
    exact ⟨⟨v, false⟩, Clause.mem_of_fact? rfl, h⟩

/-- The formula with facts is true if the formula is and the variables of the facts are. -/
lemma Cnf.holds_withFacts_iff {f : Cnf} {vs : List Variable} {σ : Valuation} :
    (f.withFacts vs).Holds σ ↔ f.Holds σ ∧ ∀ v ∈ vs, σ v = true := by
  simp only [Cnf.Holds, withFacts, List.mem_append, List.mem_map]
  constructor
  · intro h
    refine ⟨fun c hc => h c (.inl hc), ?_⟩
    intro v hv
    exact Clause.holds_fact_iff.mp (h _ (.inr ⟨v, hv, rfl⟩))
  · rintro ⟨hf, hvs⟩ c (hc | ⟨v, hv, rfl⟩)
    · exact hf c hc
    · exact Clause.holds_fact_iff.mpr (hvs v hv)

/-- A formula with facts about its own variables keeps to them. -/
lemma Cnf.InRange.withFacts {f : Cnf} {vs : List Variable} (hf : f.InRange)
    (hvs : ∀ v ∈ vs, v.index ≤ f.numVariables) : (f.withFacts vs).InRange := by
  intro c hc l hl
  rcases List.mem_append.mp hc with hc | hc
  · exact hf c hc l hl
  · obtain ⟨v, hv, rfl⟩ := List.mem_map.mp hc
    rw [← Clause.mem_literals, Clause.fact, List.mem_singleton] at hl
    subst hl
    exact hvs v hv

/-- A clause that has some literal, no negated one, and only one positive variable, is a fact. -/
lemma Clause.exists_fact? {c : Clause} (hne : c.literals ≠ [])
    (hpos : ∀ l ∈ c, l.negated = false) (hone : c.positives.length ≤ 1) :
    ∃ v, c.fact? = some v := by
  obtain ⟨⟨v, b⟩, rest, hl⟩ := List.exists_cons_of_ne_nil hne
  obtain rfl : b = false := hpos ⟨v, b⟩ (by simp [← mem_literals, hl])
  have hrest : rest = [] := by
    -- all literals count, as none of them is negated
    have hlen : c.positives.length = c.literals.length := by
      rw [positives, List.length_map, List.length_filter_eq_length_iff]
      intro l hl
      simpa using hpos l hl
    rw [hlen, hl, List.length_cons] at hone
    exact List.eq_nil_of_length_eq_zero (by omega)
  exact ⟨v, fact?_eq_some_iff.mpr (hrest ▸ hl)⟩

/-- What is left of a clause has no more positive variables than the clause. -/
lemma Clause.length_positives_residue_le (σ : Valuation) (c : Clause) :
    (c.residue σ).positives.length ≤ c.positives.length := by
  simp only [positives, List.length_map]
  exact (List.filter_sublist.filter _).length_le

namespace Workspace

/-- The valuations that make a prepared formula and its queue true are those that make the formula
true with the variables that were put on the queue. -/
lemma Prepared.admits_iff {n : Nat} {vs : List Variable} {W : Workspace} (h : Prepared n vs W)
    {σ : Valuation} : W.Admits σ ↔ (W.toCnf.withFacts vs).Holds σ := by
  rw [Cnf.holds_withFacts_iff]
  constructor
  · rintro ⟨hσ, hq⟩
    exact ⟨hσ, fun v hv => hq v (h.mem_queue_iff.mpr (.inl hv))⟩
  · rintro ⟨hσ, hvs⟩
    refine ⟨hσ, ?_⟩
    intro v hv
    rcases h.mem_queue_iff.mp hv with hv | ⟨r, hr, hf⟩
    · exact hvs v hv
    · exact Clause.eq_true_of_fact? hf (holds_toCnf_iff.mp hσ r hr)

/-- A prepared formula with the variables put on the queue as facts keeps to its variables. -/
lemma Prepared.inRange_withFacts {n : Nat} {vs : List Variable} {W : Workspace}
    (h : Prepared n vs W) : (W.toCnf.withFacts vs).InRange := by
  apply h.coherent.inRange.withFacts
  intro v hv
  have hle := h.coherent.queue_index_le v (h.mem_queue_iff.mpr (.inl hv))
  rwa [← h.coherent.numVariables_eq] at hle

/-- The facts of a prepared formula are on the queue. -/
lemma Prepared.mem_queue_of_fact? {n : Nat} {vs : List Variable} {W : Workspace}
    (h : Prepared n vs W) : ∀ r ∈ W.formula.refs, ∀ v, (W.arena.get r).fact? = some v →
      v ∈ W.formula.queue := by
  intro r hr v hf
  exact h.mem_queue_iff.mpr (.inr ⟨r, hr, hf⟩)

end Workspace

namespace Solver.Horn

open Workspace

/-- When nothing is left on the queue, the variables that are true make up a solution of a Horn
formula. -/
lemma Propagating.admits {n : Nat} {W₀ W : Workspace} {a : Assignment}
    (h : Propagating n W₀ W a) (hq : W.formula.queue = [])
    (hhorn : ∀ c ∈ W₀.toCnf.clauses, c.positives.length ≤ 1) :
    W₀.Admits a.valuation := by
  constructor
  · rw [holds_toCnf_iff, ← h.refs_eq]
    intro r hr
    have hget := h.get_eq r hr
    -- a negated literal that is left has a false variable, and without one there is only a fact
    by_cases hneg : ∃ l ∈ W.arena.get r, l.negated = true
    · obtain ⟨l, hl, hn⟩ := hneg
      rw [hget, Clause.mem_residue] at hl
      refine ⟨l, hl.1, ?_⟩
      rw [Literal.Holds, Literal.value, hn]
      exact hl.2 hn
    · have hpos : ∀ l ∈ W.arena.get r, l.negated = false := by
        intro l hl
        simpa using fun hn => hneg ⟨l, hl, hn⟩
      have hone : (W.arena.get r).positives.length ≤ 1 := by
        rw [hget]
        have hc : W₀.arena.get r ∈ W₀.toCnf.clauses := List.mem_map_of_mem (h.refs_eq ▸ hr)
        exact Nat.le_trans (Clause.length_positives_residue_le _ _) (hhorn _ hc)
      obtain ⟨v, hv⟩ := Clause.exists_fact? (h.ne_nil r hr) hpos hone
      have htrue : a.valuation v = true := by
        simpa [hq] using h.fact r hr v hv
      have hl : (⟨v, false⟩ : Literal) ∈ W.arena.get r := Clause.mem_of_fact? hv
      rw [hget, Clause.mem_residue] at hl
      exact ⟨_, hl.1, htrue⟩
  · intro v hv
    have htrue := h.queued v hv
    rw [hq] at htrue
    simpa using htrue

/-- Propagation ends with nothing on the queue, where the variables that are true are the least closed
valuation, or it comes to a contradiction, because every closed valuation refutes the formula. -/
lemma solve_closes {n : Nat} {W : Workspace} (h : W.Coherent n) :
    (∃ a, (solve W).2.result = .ok a ∧ Closing n W (solve W).1 a ∧
      (solve W).1.formula.queue = []) ∨
    (solve W).2.result = .error (.unsatisfiable .horn) ∧ ∀ σ, W.Closed σ → W.Refuted σ := by
  unfold solve
  split
  · next hempty =>
    obtain ⟨c, hc, hnil⟩ := List.any_eq_true.mp hempty
    refine .inr ⟨rfl, fun σ _ => ⟨c, hc, ?_⟩⟩
    simp [Clause.residue, List.isEmpty_iff.mp hnil]
  · next hempty =>
    have hne : ∀ r ∈ W.formula.refs, (W.arena.get r).literals ≠ [] := by
      intro r hr hnil
      apply hempty
      exact List.any_eq_true.mpr ⟨_, List.mem_map_of_mem hr, List.isEmpty_iff.mpr hnil⟩
    have hstart := Closing.start h hne
    rw [← h.numVariables_eq] at hstart
    rcases propagate_spec 0 hstart with ⟨W', a, k, hok, hend, hq⟩ | ⟨W', herr, hall⟩
    · rw [hok]
      exact .inl ⟨a, rfl, h.numVariables_eq ▸ hend, hq⟩
    · rw [herr]
      exact .inr ⟨rfl, hall⟩

/-- The result depends on the clauses and on the variables on the queue only. -/
lemma result_solve_eq {n : Nat} {W W' : Workspace} (h : W.Coherent n) (h' : W'.Coherent n)
    (hcnf : W'.toCnf = W.toCnf) (hqueue : ∀ v, v ∈ W'.formula.queue ↔ v ∈ W.formula.queue) :
    (solve W').2.result = (solve W).2.result := by
  have hclosed : ∀ σ, W'.Closed σ ↔ W.Closed σ := by
    intro σ
    constructor
    · rintro ⟨hqueued, hderived⟩
      exact ⟨fun v hv => hqueued v ((hqueue v).mpr hv), hcnf ▸ hderived⟩
    · rintro ⟨hqueued, hderived⟩
      exact ⟨fun v hv => hqueued v ((hqueue v).mp hv), hcnf ▸ hderived⟩
  have hrefuted : ∀ σ, W'.Refuted σ ↔ W.Refuted σ := by
    intro σ
    rw [Refuted, Refuted, hcnf]
  rcases solve_closes h with ⟨a, hok, hend, hq⟩ | ⟨herr, hall⟩
  · rcases solve_closes h' with ⟨a', hok', hend', hq'⟩ | ⟨-, hall'⟩
    · -- each of the two valuations is below the other one
      have ha : a' = a := by
        apply Assignment.ext_valuation (hend'.length_eq.trans hend.length_eq.symm)
        intro v _
        rw [Bool.eq_iff_iff]
        constructor
        · intro hv
          exact hend'.forced _ ((hclosed _).mpr (hend.closed hq)) v (.inr hv)
        · intro hv
          exact hend.forced _ ((hclosed _).mp (hend'.closed hq')) v (.inr hv)
      rw [hok, hok', ha]
    · have hrefutes := hall' _ ((hclosed _).mpr (hend.closed hq))
      exact absurd ((hrefuted _).mp hrefutes) hend.not_refuted
  · rcases solve_closes h' with ⟨a', -, hend', hq'⟩ | ⟨herr', -⟩
    · have hrefutes := hall _ ((hclosed _).mp (hend'.closed hq'))
      exact absurd ((hrefuted _).mpr hrefutes) hend'.not_refuted
    · rw [herr, herr']

/-- Propagation makes true what is true in all solutions and nothing else, and ends in this state
with nothing on the queue, or there is no solution. -/
lemma solve_spec {n : Nat} {W : Workspace} (h : W.Coherent n)
    (hfact : ∀ r ∈ W.formula.refs, ∀ v, (W.arena.get r).fact? = some v → v ∈ W.formula.queue) :
    (∃ a, (solve W).2.result = .ok a ∧ Propagating n W (solve W).1 a ∧
      (solve W).1.formula.queue = []) ∨
    (solve W).2.result = .error (.unsatisfiable .horn) ∧ ∀ σ, ¬ W.Admits σ := by
  rcases solve_closes h with ⟨a, hok, hend, hq⟩ | ⟨herr, hall⟩
  · exact .inl ⟨a, hok, hend.propagating hfact, hq⟩
  · exact .inr ⟨herr, fun σ hσ => hσ.not_refuted (hall σ hσ.closed)⟩

/-- Propagation decides a prepared Horn formula with the variables put on the queue as facts. -/
lemma solve_decides_withFacts {n : Nat} {vs : List Variable} {W : Workspace} (h : Prepared n vs W)
    (hhorn : ∀ c ∈ W.toCnf.clauses, c.positives.length ≤ 1) :
    (W.toCnf.withFacts vs).Decides (.unsatisfiable .horn) (solve W).2.result := by
  rcases solve_spec h.coherent h.mem_queue_of_fact? with ⟨a, hok, hend, hq⟩ | ⟨herr, hnone⟩
  · rw [hok]
    refine .found ?_ (h.admits_iff.mp (hend.admits hq hhorn))
    exact hend.length_eq.trans h.coherent.numVariables_eq.symm
  · rw [herr]
    refine .refuted ?_
    rintro ⟨σ, hσ⟩
    exact hnone σ (h.admits_iff.mpr hσ)

/-- For a prepared Horn formula, propagation finds the least solution in which the variables put on
the queue are true: a variable is true in it exactly if it is true in every solution. Otherwise it
reports that there is no solution, and it does so exactly if every assignment fails. -/
theorem solve_least {n : Nat} {vs : List Variable} {W : Workspace} (h : Prepared n vs W)
    (hhorn : ∀ c ∈ W.toCnf.clauses, c.positives.length ≤ 1) :
    let result := (solve W).2.result
    let f := W.toCnf.withFacts vs
    ((∃ a, result = .ok a ∧ a.length = n ∧ f.check a = .ok true ∧
        ∀ v : Variable, v.index ≤ n → (a.read v.place = .ok true ↔
          ∀ b : Assignment, b.length = n → f.check b = .ok true → b.read v.place = .ok true)) ∨
      result = .error (.unsatisfiable .horn)) ∧
    (result = .error (.unsatisfiable .horn) ↔
      ∀ a : Assignment, a.length = n → f.check a = .ok false) := by
  have hf : (W.toCnf.withFacts vs).InRange := h.inRange_withFacts
  have hn : (W.toCnf.withFacts vs).numVariables = n := h.coherent.numVariables_eq
  obtain ⟨hresult, hunsat⟩ := (solve_decides_withFacts h hhorn).check hf
  rw [hn] at hresult hunsat
  refine ⟨?_, hunsat⟩
  rcases hresult with ⟨a, hok, hlen, hpass⟩ | herr
  · rcases solve_spec h.coherent h.mem_queue_of_fact? with ⟨a', hok', hend, -⟩ | ⟨herr, -⟩
    · obtain rfl : a' = a := Except.ok.inj (hok'.symm.trans hok)
      refine .inl ⟨a', hok, hlen, hpass, ?_⟩
      intro v hv
      constructor
      · intro htrue b hb hpass'
        rw [Assignment.read_eq_true_iff (hlen ▸ Variable.place_lt hv)] at htrue
        rw [Assignment.read_eq_true_iff (hb ▸ Variable.place_lt hv)]
        have hσ := (Cnf.check_eq_true_iff hf (Nat.le_of_eq (hn.trans hb.symm))).mp hpass'
        exact hend.forced b.valuation (h.admits_iff.mpr hσ) v (.inr htrue)
      · intro hall
        exact hall a' hlen hpass
    · rw [hok] at herr
      cases herr
  · exact .inr herr

/-- Two implications from the first of three variables, one of them added twice, where the first
variable was put on the queue. -/
def implied : Workspace where
  arena := ⟨#[.ofInts [-1, 2], .ofInts [-1, -3]]⟩
  formula := {
    numVariables := 3
    refs := [0, 1, 0]
    queue := [.ofPlace 0]
    register := [(.ofPlace 0, 0), (.ofPlace 0, 1), (.ofPlace 2, 1), (.ofPlace 0, 0)] }

/-- The implications can be prepared one after the other. -/
lemma prepared_implied : Prepared 3 [.ofPlace 0] implied := by
  have h := Prepared.start (n := 3) implied.arena
  have h := h.add (r := 0) (by decide) rfl
  have h := h.add (r := 1) (by decide) rfl
  have h := h.add (r := 0) (by decide) rfl
  exact h.push (v := .ofPlace 0) (by decide)

/-- Propagation makes the second variable of the example true, but not the third. -/
theorem solve_least_implied :
    (∀ c ∈ implied.toCnf.clauses, c.positives.length ≤ 1) ∧ Prepared 3 [.ofPlace 0] implied ∧
      ∃ a, (solve implied).2.result = .ok a ∧ a.read 1 = .ok true ∧ a.read 2 ≠ .ok true := by
  have hhorn : ∀ c ∈ implied.toCnf.clauses, c.positives.length ≤ 1 := by decide
  obtain ⟨hresult, hunsat⟩ := solve_least prepared_implied hhorn
  rcases hresult with ⟨a, hok, -, -, hleast⟩ | herr
  · refine ⟨hhorn, prepared_implied, a, hok, ?_, ?_⟩
    · refine (hleast (.ofPlace 1) (by decide)).mpr ?_
      intro b hb
      obtain ⟨x, y, z, rfl⟩ := List.length_eq_three.mp hb
      revert x y z
      decide
    · intro htrue
      have hall := (hleast (.ofPlace 2) (by decide)).mp htrue
      cases hall [true, true, false] rfl rfl
  · cases hunsat.mp herr [true, true, false] rfl

end Solver.Horn

end Clausal
