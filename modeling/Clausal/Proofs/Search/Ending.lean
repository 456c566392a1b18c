import Clausal.Proofs.Search.Recursion
import Mathlib.Algebra.Group.Nat.Defs

/-!
# The end of the search

Clauses may have been changed after they were added to a formula, so that they have variables beyond
those of the formula, or no literals at all. The search can then assign a variable that it has not
listed, and it can run out of listed variables. Main statements: whatever the clauses, the loop of
the search ends, after a number of rounds that is bounded by their size (`runFor_eq`), and it tells
the truth about them unless it stops at a variable beyond those of the formula (`solve_ends`).
-/

namespace Clausal.Solver.Search

/-! ### The number of rounds -/

/-- The search broken off after a number of rounds, in each of which it works off the top branch. -/
def runFor (clauses : List Clause) :
    Nat → Counts → List Branch → Option (Except Error (Model × Counts))
  | _, _, [] => some (.error (.unsatisfiable .general))
  | 0, _, _ :: _ => none
  | k + 1, counts, b :: work =>
    match step clauses b with
    | .solved => some (.ok (b.model, counts))
    | .failed => runFor clauses k counts work
    | .forced move => runFor clauses k (counts.add ⟨0, 1⟩) (b.follow move :: work)
    | .branch v rest =>
      runFor clauses k (counts.add ⟨1, 0⟩)
        (⟨rest, b.model.insert v true⟩ :: ⟨rest, b.model.insert v false⟩ :: work)
    | .stuck => some (.error .noVariableLeft)

/-- A forced move leaves a stack that counts for less. -/
lemma totalWorth_follow_lt {clauses : List Clause} {b : Branch} {move : Move}
    (h : step clauses b = .forced move) (work : List Branch) :
    totalWorth clauses (b.follow move :: work) < totalWorth clauses (b :: work) := by
  have hlt : Nat.pow 3 ((b.follow move).weight clauses) < Nat.pow 3 (b.weight clauses) :=
    Nat.pow_lt_pow_right (by decide) (weight_follow_lt h)
  simp only [totalWorth]
  omega

/-- A decision leaves a stack that counts for less, though with one branch more. -/
lemma totalWorth_branch_lt {clauses : List Clause} {b : Branch} {v : Variable}
    {rest : List Variable} (h : step clauses b = .branch v rest) (work : List Branch) :
    totalWorth clauses (⟨rest, b.model.insert v true⟩ :: ⟨rest, b.model.insert v false⟩ :: work) <
      totalWorth clauses (b :: work) := by
  have hlt := three_pow_add_lt (weight_branch_lt h true) (weight_branch_lt h false)
  simp only [totalWorth]
  omega

/-- As many rounds as the stack counts for are enough to end the search. -/
lemma runFor_eq {clauses : List Clause} {k : Nat} {work : List Branch} (counts : Counts)
    (h : totalWorth clauses work ≤ k) :
    runFor clauses k counts work = some (run clauses counts work) := by
  -- every round leaves a stack that counts for less
  induction k generalizing counts work with
  | zero =>
    cases work with
    | nil => rw [runFor, run]
    | cons b work =>
      have hpos : 0 < Nat.pow 3 (b.weight clauses) := Nat.pow_pos (by decide)
      simp only [totalWorth] at h
      omega
  | succ k ih =>
    cases work with
    | nil => rw [runFor, run]
    | cons b work =>
      rw [runFor, run_cons]
      cases hstep : step clauses b with
      | solved => rfl
      | failed =>
        have hpos : 0 < Nat.pow 3 (b.weight clauses) := Nat.pow_pos (by decide)
        simp only [totalWorth] at h
        exact ih counts (by omega)
      | forced move =>
        have hlt := totalWorth_follow_lt hstep work
        exact ih _ (by omega)
      | branch v rest =>
        have hlt := totalWorth_branch_lt hstep work
        exact ih _ (by omega)
      | stuck => rfl

/-- At the start the search has the variables of the formula and all occurrences before it. -/
lemma totalWorth_start (f : Cnf) : totalWorth f.clauses [⟨f.vars, OrderedMap.empty⟩] =
    3 ^ (f.numVariables + (f.clauses.flatMap Clause.vars).length) := by
  have hopen : openOccurrences f.clauses OrderedMap.empty = f.clauses.flatMap Clause.vars := by
    rw [openOccurrences, List.filter_eq_self]
    intro v _
    rfl
  simp only [totalWorth, Branch.weight, hopen, Cnf.vars, Variable.upTo, List.length_map,
    List.length_range, Nat.add_zero, Nat.pow_eq]

/-! ### The answer -/

/-- Writing stops at the first entry whose variable has no place. -/
lemma writeAll_eq_error {a : Assignment} {es : List (Variable × Bool)}
    (h : ∃ e ∈ es, a.length ≤ e.1.place) :
    ∃ e ∈ es, a.length ≤ e.1.place ∧
      writeAll a es = .error (.beyondAssignment e.1.place a.length) := by
  induction es generalizing a with
  | nil =>
    obtain ⟨e, he, -⟩ := h
    cases he
  | cons e rest ih =>
    by_cases he : a.length ≤ e.1.place
    · refine ⟨e, List.mem_cons_self, he, ?_⟩
      simp [writeAll, Assignment.write, Nat.not_lt.mpr he, bind, Except.bind]
    · have hwrite := Assignment.write_place (b := e.2) (Nat.lt_of_not_le he)
      have hrest : ∃ e' ∈ rest, (a.set e.1.place e.2).length ≤ e'.1.place := by
        obtain ⟨e', hmem, hle⟩ := h
        rcases List.mem_cons.mp hmem with rfl | hmem
        · exact absurd hle he
        · exact ⟨e', hmem, by simpa using hle⟩
      obtain ⟨e', hmem, hle, herr⟩ := ih hrest
      rw [List.length_set] at hle herr
      refine ⟨e', List.mem_cons_of_mem e hmem, hle, ?_⟩
      simpa [writeAll, hwrite, bind, Except.bind] using herr

/-- A model that assigns a variable beyond `n` cannot be written into `n` values. -/
lemma writeAll_beyond {n : Nat} {m : Model} {v : Variable} {x : Bool} (hv : m.find? v = some x)
    (hlt : n < v.index) : ∃ w y, m.find? w = some y ∧ n < w.index ∧
      writeAll (Assignment.allFalse n) m.entries = .error (.beyondAssignment w.place n) := by
  have hkey : v ∈ m.keys := (m.isSome_find?_iff v).mp (by simp [hv])
  obtain ⟨e, he, rfl⟩ := List.mem_map.mp hkey
  have hplace : n ≤ e.1.place := by
    simp only [Variable.place]
    omega
  have hlen : (Assignment.allFalse n).length = n := by simp [Assignment.allFalse]
  obtain ⟨e', he', hle, herr⟩ := writeAll_eq_error ⟨e, he, hlen.symm ▸ hplace⟩
  rw [hlen] at hle herr
  have hkey' : e'.1 ∈ m.keys := List.mem_map_of_mem he'
  obtain ⟨y, hy⟩ := Option.isSome_iff_exists.mp ((m.isSome_find?_iff e'.1).mpr hkey')
  have hpos := e'.1.index_pos
  refine ⟨e'.1, y, hy, ?_, herr⟩
  simp only [Variable.place] at hle
  omega

/-- What the search may say of a formula, whatever the variables of its clauses. -/
inductive Truthful (f : Cnf) : Except Error Assignment → Prop where
  | solution {a : Assignment} :
    a.length = f.numVariables →
    (∀ c ∈ f.clauses, c.isTautology = true ∨
      ∃ l ∈ c, l.var.index ≤ f.numVariables ∧ a.read l.var.place = .ok l.value) →
    Truthful f (.ok a)
  | refuted :
    ¬ f.Satisfiable →
    Truthful f (.error (.unsatisfiable .general))
  | stuck {c : Clause} {l : Literal} :
    c ∈ f.clauses →
    l ∈ c →
    f.numVariables < l.var.index →
    Truthful f (.error .noVariableLeft)
  | beyond {v : Variable} {c : Clause} {l : Literal} :
    f.numVariables < v.index →
    c ∈ f.clauses →
    l ∈ c →
    l.var = v →
    Truthful f (.error (.beyondAssignment v.place f.numVariables))

/-- An assignment that has the values of a model makes a literal true in each clause that is true
under the model. -/
lemma exists_read_of_clauseValue? {n : Nat} {m : Model} {a : Assignment} {c : Clause}
    (hlen : a.length = n) (hext : m.ExtendedBy a.valuation)
    (hm : ∀ v x, m.find? v = some x → v.index ≤ n) (hc : m.clauseValue? c = some true) :
    c.isTautology = true ∨ ∃ l ∈ c, l.var.index ≤ n ∧ a.read l.var.place = .ok l.value := by
  rcases Model.clauseValue?_eq_true_iff.mp hc with htaut | ⟨l, hl, hv⟩
  · exact .inl htaut
  · have hx := Model.literalValue?_eq_true_iff.mp hv
    have hle := hm l.var l.value hx
    refine .inr ⟨l, hl, hle, ?_⟩
    rw [Assignment.read_place (hlen.symm ▸ Variable.place_lt hle), hext l.var l.value hx]

/-- The search tells the truth about every formula. -/
lemma truthful_solve (f : Cnf) : Truthful f (solve f).result := by
  have hstart : ∀ b ∈ [(⟨f.vars, OrderedMap.empty⟩ : Branch)],
      b.Orderly f.numVariables f.clauses := by
    intro b hb
    rw [List.mem_singleton] at hb
    exact hb ▸ (Branch.Proper.start f.numVariables).orderly f.clauses
  have hend := ending_run ⟨0, 0⟩ _ hstart
  unfold solve
  split
  · next e hrun =>
    rw [hrun] at hend
    cases hend with
    | refuted hnone =>
      refine .refuted ?_
      rintro ⟨σ, hσ⟩
      exact hnone _ List.mem_cons_self ⟨σ, Model.extendedBy_empty σ, hσ⟩
    | stuck hcm hl hlt => exact .stuck hcm hl hlt
  · next m counts hrun =>
    rw [hrun] at hend
    cases hend with
    | solved hall hwithin =>
      -- the model found can be written unless it assigns a variable beyond those of the formula
      by_cases hm : ∀ v x, m.find? v = some x → v.index ≤ f.numVariables
      · obtain ⟨a, hok, hlen, hext⟩ := extendedBy_of_writeAll hm
        rw [hok]
        refine .solution hlen ?_
        intro c hcm
        exact exists_read_of_clauseValue? hlen hext hm (hall c hcm)
      · simp only [not_forall, Nat.not_le] at hm
        obtain ⟨v, x, hv, hlt⟩ := hm
        obtain ⟨w, y, hw, hlt, herr⟩ := writeAll_beyond hv hlt
        rw [herr]
        rcases hwithin w y hw with hle | ⟨c, hcm, l, hl, hlw⟩
        · exact absurd hle (Nat.not_le.mpr hlt)
        · exact .beyond hlt hcm hl hlw

/-- Whatever has become of its clauses, the search of a formula ends, after no more rounds than the
power of three with the number of its variables and of the literals of its clauses as the exponent.
It gives an assignment under which each clause that is no tautology has a true literal, or the error
that no valuation satisfies the clauses, unless it stops at a variable of the clauses that is beyond
those of the formula. -/
theorem solve_ends (f : Cnf) :
    runFor f.clauses (3 ^ (f.numVariables + (f.clauses.flatMap Clause.vars).length)) ⟨0, 0⟩
        [⟨f.vars, OrderedMap.empty⟩] =
      some (run f.clauses ⟨0, 0⟩ [⟨f.vars, OrderedMap.empty⟩]) ∧
    Truthful f (solve f).result :=
  ⟨runFor_eq _ (Nat.le_of_eq (totalWorth_start f)), truthful_solve f⟩

/-- A clause of two variables beyond those of the formula leaves the search nothing to decide. -/
example : runFor [.ofInts [2, 3]] 1 ⟨0, 0⟩ [⟨Variable.upTo 0, OrderedMap.empty⟩] =
    some (.error .noVariableLeft) := by
  rfl

end Clausal.Solver.Search
