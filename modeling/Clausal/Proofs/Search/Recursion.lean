import Clausal.Proofs.Search.Verdict

/-!
# The search as a recursive procedure

The search keeps the branches that are still to be tried on a stack, with counts that all branches
share. The recursive procedure `descend` has no stack: it works off a branch with all that comes of
it before it turns to another one, and counts the moves made on the way. Main statements: with a
branch on top of any stack, the search first finds out what the procedure finds out about this
branch, and if nothing comes of it goes on with the rest of the stack (`run_cons_eq`). So the search
as a whole has the verdict, the model and the counts of the procedure (`solve_descends`).
-/

namespace Clausal.Solver.Search

/-! ### The procedure -/

/-- The move that a branch has to follow: the pure move, or else the unit move. -/
def move? (clauses : List Clause) (b : Branch) : Option Move :=
  (pureMove? clauses b.vars b.model).or (unitMove? clauses b.model)

/-- The move to follow is the pure move or the unit move. -/
lemma move?_eq_some {clauses : List Clause} {b : Branch} {move : Move}
    (h : move? clauses b = some move) :
    pureMove? clauses b.vars b.model = some move ∨ unitMove? clauses b.model = some move := by
  rcases Option.or_eq_some_iff.mp h with hp | ⟨-, hu⟩
  · exact .inl hp
  · exact .inr hu

/-- Following the move leaves less to do, since its variable is listed or open in a clause. -/
lemma weight_follow_lt_of_move? {clauses : List Clause} {b : Branch} {move : Move}
    (h : move? clauses b = some move) : (b.follow move).weight clauses < b.weight clauses := by
  have hvars := length_without_le b.vars move.var
  have hopen := length_without_le (openOccurrences clauses b.model) move.var
  simp only [Branch.weight, Branch.follow, openOccurrences_insert]
  rcases move?_eq_some h with hp | hu
  · have := length_without_lt (mem_of_pureMove? hp)
    omega
  · have := length_without_lt (mem_openOccurrences_of_unitMove? hu)
    omega

/-- Deciding the first variable leaves less to do, whatever its value. -/
lemma weight_decide_lt {clauses : List Clause} {b : Branch} {v : Variable} {rest : List Variable}
    (h : b.vars = v :: rest) (x : Bool) :
    (Branch.mk rest (b.model.insert v x)).weight clauses < b.weight clauses := by
  have hopen := length_without_le (openOccurrences clauses b.model) v
  simp only [Branch.weight, openOccurrences_insert, h, List.length_cons]
  omega

/-- The moves of two parts of a search. -/
def Counts.add (k l : Counts) : Counts := ⟨k.decisions + l.decisions, k.forced + l.forced⟩

/-- The moves of three parts of a search may be added in either order. -/
lemma Counts.add_assoc (j k l : Counts) : (j.add k).add l = j.add (k.add l) := by
  simp only [Counts.add, Nat.add_assoc]

/-- A part of a search without moves adds nothing. -/
lemma Counts.add_zero (k : Counts) : k.add ⟨0, 0⟩ = k := rfl

/-- Works off a branch with all that comes of it. A branch in which all clauses are true is a
solution, and nothing comes of one in which some clause is false. Otherwise the move to follow is
followed without an alternative. If there is none, the first variable is made true, and only if
nothing comes of that, false. All moves made are counted, those that led to nothing included. -/
def descend (clauses : List Clause) (b : Branch) : Option Model × Counts :=
  if ∀ c ∈ clauses, b.model.clauseValue? c = some true then (some b.model, ⟨0, 0⟩)
  else if ∃ c ∈ clauses, b.model.clauseValue? c = some false then (none, ⟨0, 0⟩)
  else
    match _hm : move? clauses b with
    | some move =>
      let (found, k) := descend clauses (b.follow move)
      (found, .add ⟨0, 1⟩ k)
    | none =>
      match _hv : b.vars with
      | [] => (none, ⟨0, 0⟩)
      | v :: rest =>
        match descend clauses ⟨rest, b.model.insert v true⟩ with
        | (some m, k) => (some m, .add ⟨1, 0⟩ k)
        | (none, k) =>
          let (found, l) := descend clauses ⟨rest, b.model.insert v false⟩
          (found, .add ⟨1, 0⟩ (k.add l))
termination_by b.weight clauses
decreasing_by
  · exact weight_follow_lt_of_move? _hm
  · exact weight_decide_lt _hv true
  · exact weight_decide_lt _hv false

/-! ### The stack -/

/-- What a step is, in terms of the values of the clauses and the move to follow. -/
lemma step_eq (clauses : List Clause) (b : Branch) :
    step clauses b =
      if ∀ c ∈ clauses, b.model.clauseValue? c = some true then .solved
      else if ∃ c ∈ clauses, b.model.clauseValue? c = some false then .failed
      else match move? clauses b, b.vars with
        | some move, _ => .forced move
        | none, [] => .stuck
        | none, v :: rest => .branch v rest := by
  have hall : ((clauses.map b.model.clauseValue?).all (· == some true) = true) =
      ∀ c ∈ clauses, b.model.clauseValue? c = some true := by simp
  have hany : ((clauses.map b.model.clauseValue?).any (· == some false) = true) =
      ∃ c ∈ clauses, b.model.clauseValue? c = some false := by simp
  simp only [step, hall, hany, move?]
  split
  · rfl
  split
  · rfl
  cases pureMove? clauses b.vars b.model with
  | some move => rfl
  | none =>
    cases unitMove? clauses b.model with
    | some move => rfl
    | none => cases b.vars <;> rfl

/-- The search goes on as the step of the top branch tells. -/
lemma run_cons (clauses : List Clause) (counts : Counts) (b : Branch) (work : List Branch) :
    run clauses counts (b :: work) =
      match step clauses b with
      | .solved => .ok (b.model, counts)
      | .failed => run clauses counts work
      | .forced move => run clauses (counts.add ⟨0, 1⟩) (b.follow move :: work)
      | .branch v rest =>
        run clauses (counts.add ⟨1, 0⟩)
          (⟨rest, b.model.insert v true⟩ :: ⟨rest, b.model.insert v false⟩ :: work)
      | .stuck => .error .noVariableLeft := by
  rw [run]
  split <;> next h => simp only [h, Counts.add, Nat.add_zero]

/-- Deciding the first variable of a proper branch leaves a proper branch. -/
lemma Branch.Proper.decide {n : Nat} {b : Branch} (hb : b.Proper n) {v : Variable}
    {rest : List Variable} (h : b.vars = v :: rest) (x : Bool) :
    Branch.Proper n ⟨rest, b.model.insert v x⟩ := by
  rw [← hb.follow_eq h x]
  exact hb.follow (hb.mem_vars_iff.mp (h ▸ List.mem_cons_self)).1

/-- The search finds out about the top branch what the recursive procedure finds out about it: it
ends with the model found, or goes on with the rest of the stack, and has made as many moves. -/
lemma run_cons_eq {n : Nat} {clauses : List Clause}
    (hc : ∀ c ∈ clauses, ∀ l ∈ c, l.var.index ≤ n) (counts : Counts) {b : Branch}
    (work : List Branch) (hb : b.Proper n) :
    run clauses counts (b :: work) =
      match descend clauses b with
      | (some m, k) => .ok (m, counts.add k)
      | (none, k) => run clauses (counts.add k) work := by
  -- the induction is on the calls of the procedure, for all stacks below the branch at once
  fun_induction descend clauses b generalizing counts work with
  | case1 b hall => simp only [run_cons, step_eq, if_pos hall, Counts.add_zero]
  | case2 b hall hany => simp only [run_cons, step_eq, if_neg hall, if_pos hany, Counts.add_zero]
  | case3 b hall hany move hm found k hk ih =>
    have hstep : step clauses b = .forced move := by
      simp only [step_eq, if_neg hall, if_neg hany, hm]
    obtain ⟨hle, -⟩ := hb.of_forced hc (move?_eq_some hm)
    rw [run_cons, hstep]
    simp only
    rw [ih _ _ (hb.follow hle), hk]
    cases found <;> simp only [Counts.add_assoc]
  | case4 b hall hany hm hv =>
    have hstep : step clauses b = .stuck := by
      simp only [step_eq, if_neg hall, if_neg hany, hm, hv]
    exact absurd hstep (hb.step_ne_stuck hc)
  | case5 b hall hany hm v rest hv m k hk ih =>
    have hstep : step clauses b = .branch v rest := by
      simp only [step_eq, if_neg hall, if_neg hany, hm, hv]
    rw [run_cons, hstep]
    simp only
    rw [ih _ _ (hb.decide hv true), hk]
    simp only [Counts.add_assoc]
  | case6 b hall hany hm v rest hv k hk found l hl ihtrue ihfalse =>
    have hstep : step clauses b = .branch v rest := by
      simp only [step_eq, if_neg hall, if_neg hany, hm, hv]
    rw [run_cons, hstep]
    simp only
    -- nothing comes of the value true, so that the branch with false is on top of the stack
    rw [ihtrue _ _ (hb.decide hv true), hk]
    simp only
    rw [ihfalse _ _ (hb.decide hv false), hl]
    cases found <;> simp only [Counts.add_assoc]

/-! ### The whole search -/

/-- The search has the verdict of the recursive procedure. If the procedure finds a model, the
search gives its values, and false where it has none, and reports its counts of moves. -/
theorem solve_descends {n : Nat} {W : Workspace} (h : W.Built n) :
    match descend W.toCnf.clauses ⟨Variable.upTo n, OrderedMap.empty⟩ with
    | (some m, k) => ∃ a, solve W.toCnf = ⟨[.modelFound k.decisions k.forced], .ok a⟩ ∧
        a.length = n ∧ ∀ v : Variable, v.index ≤ n → a.read v.place = .ok ((m.find? v).getD false)
    | (none, _) => solve W.toCnf = .silent (.error (.unsatisfiable .general)) := by
  have hf := h.coherent.inRange
  have hn : W.toCnf.numVariables = n := h.coherent.numVariables_eq
  have hc : ∀ c ∈ W.toCnf.clauses, ∀ l ∈ c, l.var.index ≤ n := hn ▸ hf
  have hstart := Branch.Proper.start n
  have hrun := run_cons_eq hc ⟨0, 0⟩ [] hstart
  have hspec := run_spec hc ⟨0, 0⟩ [⟨Variable.upTo n, OrderedMap.empty⟩] (by simpa using hstart)
  cases hd : descend W.toCnf.clauses ⟨Variable.upTo n, OrderedMap.empty⟩ with
  | mk found k =>
    rw [hd] at hrun
    cases found with
    | none =>
      simp only at hrun
      rw [run] at hrun
      simp only [solve, Cnf.vars, hn, hrun]
    | some m =>
      simp only at hrun
      rw [hrun] at hspec
      rcases hspec with ⟨m', k', hok, -, hle⟩ | ⟨herr, -⟩
      · cases hok
        obtain ⟨a, hwrite, hlen, hval⟩ := valuation_of_writeAll hle
        refine ⟨a, ?_, hlen, ?_⟩
        · simp [solve, Cnf.vars, hn, hrun, hwrite, Counts.add]
        · intro v hv
          rw [Assignment.read_place (hlen ▸ Variable.place_lt hv), hval]
      · cases herr

/-- Four clauses in which the first variable cannot be true, over one variable more than they have.
-/
def falseFirst : Workspace where
  arena := ⟨#[.ofInts [-1, 2], .ofInts [-1, -2], .ofInts [1, 3], .ofInts [1, -3, 2]]⟩
  formula := {
    numVariables := 4
    refs := [0, 1, 2, 3]
    queue := []
    register := [(.ofPlace 0, 0), (.ofPlace 0, 1), (.ofPlace 1, 1), (.ofPlace 2, 3)] }

/-- The example was built by adding its clauses. -/
lemma built_falseFirst : falseFirst.Built 4 := by
  have h := Workspace.Prepared.start (n := 4) falseFirst.arena
  have h := h.add (r := 0) (by decide) rfl
  have h := h.add (r := 1) (by decide) rfl
  have h := h.add (r := 2) (by decide) rfl
  exact h.add (r := 3) (by decide) rfl

/-- In the example a decision and a forced move lead to nothing before two forced moves lead to a
model, which leaves the last variable open. -/
theorem solve_descends_falseFirst :
    falseFirst.Built 4 ∧
      solve falseFirst.toCnf = ⟨[.modelFound 1 3], .ok [false, true, true, false]⟩ := by
  refine ⟨built_falseFirst, ?_⟩
  have h := solve_descends built_falseFirst
  have hd : descend falseFirst.toCnf.clauses ⟨Variable.upTo 4, OrderedMap.empty⟩ =
      (some (.ofList [(.ofPlace 0, false), (.ofPlace 1, true), (.ofPlace 2, true)]), ⟨1, 3⟩) := by
    with_unfolding_all rfl
  rw [hd] at h
  obtain ⟨a, hsolve, hlen, hread⟩ := h
  rw [hsolve]
  match a, hlen with
  | [w, x, y, z], _ =>
    cases hread (.ofPlace 0) (by decide)
    cases hread (.ofPlace 1) (by decide)
    cases hread (.ofPlace 2) (by decide)
    cases hread (.ofPlace 3) (by decide)
    rfl

end Clausal.Solver.Search
