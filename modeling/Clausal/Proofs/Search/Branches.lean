import Clausal.Proofs.Search.Moves

/-!
# Branches of the search

The invariant of the stack of branches. The variables of a branch over `n` variables are those from
1 to `n` that its model leaves open. The model assigns none but these and those of the clauses, so
that the branch is proper, with nothing assigned beyond `n`, if the clauses keep to the variables.
Main statements: moves and decisions keep branches orderly and proper (`Branch.Orderly.follow`,
`Branch.Proper.follow`), a branch has a solution exactly if one of those that a step makes of it has
(`Branch.solvable_follow_iff`, `Branch.Listed.solvable_branch_iff`), and a whole run ends with a
model under which all clauses are true, or finds that no branch of the stack has a solution
(`run_spec`), unless there is a variable beyond `n` in the clauses (`ending_run`).
-/

namespace Clausal.Solver.Search

/-- The variables to decide are those from 1 to `n` that the model leaves open, in increasing order.
-/
structure Branch.Listed (n : Nat) (b : Branch) : Prop where
  vars_eq : b.vars = (Variable.upTo n).filter fun v => (b.model.find? v).isNone

/-- The variables to decide are those from 1 to `n` that the model leaves open, in increasing
order, and the model assigns no variable beyond them. -/
structure Branch.Proper (n : Nat) (b : Branch) : Prop extends Branch.Listed n b where
  index_le : ∀ v x, b.model.find? v = some x → v.index ≤ n

/-- The variable is one of those from 1 to `n` or occurs in a clause. -/
def Within (n : Nat) (clauses : List Clause) (v : Variable) : Prop :=
  v.index ≤ n ∨ ∃ c ∈ clauses, ∃ l ∈ c, l.var = v

/-- The variables to decide are those from 1 to `n` that the model leaves open, in increasing
order, and the model assigns no variable but these and those of the clauses. -/
structure Branch.Orderly (n : Nat) (clauses : List Clause) (b : Branch) : Prop
    extends Branch.Listed n b where
  within : ∀ v x, b.model.find? v = some x → Within n clauses v

/-- If the clauses keep to the variables from 1 to `n`, none is within that is beyond `n`. -/
lemma Within.index_le {n : Nat} {clauses : List Clause} {v : Variable} (h : Within n clauses v)
    (hc : ∀ c ∈ clauses, ∀ l ∈ c, l.var.index ≤ n) : v.index ≤ n := by
  rcases h with hv | ⟨c, hcm, l, hl, rfl⟩
  · exact hv
  · exact hc c hcm l hl

/-- A proper branch is orderly, whatever the clauses. -/
lemma Branch.Proper.orderly {n : Nat} {b : Branch} (hb : b.Proper n) (clauses : List Clause) :
    b.Orderly n clauses where
  toListed := hb.toListed
  within := fun v x h => .inl (hb.index_le v x h)

/-- The branch that the search starts with is proper. -/
lemma Branch.Proper.start (n : Nat) : Branch.Proper n ⟨Variable.upTo n, OrderedMap.empty⟩ where
  vars_eq := by
    symm
    rw [List.filter_eq_self]
    intro v _
    rfl
  index_le := by
    intro v x h
    cases h

/-- The variables to decide are those up to `n` that the model leaves open. -/
lemma Branch.Listed.mem_vars_iff {n : Nat} {b : Branch} (hb : b.Listed n) {v : Variable} :
    v ∈ b.vars ↔ v.index ≤ n ∧ b.model.find? v = none := by
  rw [hb.vars_eq, List.mem_filter, Variable.mem_upTo, Option.isNone_iff_eq_none]

/-- After a move the variables still open are listed, also if the one assigned was not. -/
lemma Branch.Listed.follow {n : Nat} {b : Branch} (hb : b.Listed n) (move : Move) :
    (b.follow move).Listed n where
  vars_eq := by
    simp only [Branch.follow, without, hb.vars_eq, List.filter_filter]
    congr 1
    funext v
    rw [OrderedMap.find?_insert]
    by_cases hv : v = move.var <;> simp [hv]

/-- Assigning a variable of the formula or of a clause leaves an orderly branch. -/
lemma Branch.Orderly.follow {n : Nat} {clauses : List Clause} {b : Branch}
    (hb : b.Orderly n clauses) {move : Move} (h : Within n clauses move.var) :
    (b.follow move).Orderly n clauses where
  toListed := hb.toListed.follow move
  within := by
    intro v x hv
    simp only [Branch.follow, OrderedMap.find?_insert] at hv
    split at hv
    · next e => exact e ▸ h
    · exact hb.within v x hv

/-- Assigning a variable of the formula leaves a proper branch. -/
lemma Branch.Proper.follow {n : Nat} {b : Branch} (hb : b.Proper n) {move : Move}
    (h : move.var.index ≤ n) : (b.follow move).Proper n where
  toListed := hb.toListed.follow move
  index_le := by
    intro v x hv
    exact (((hb.orderly []).follow (.inl h)).within v x hv).index_le (by simp)

/-- Deciding the first variable listed is following a move. -/
lemma Branch.Listed.follow_eq {n : Nat} {b : Branch} (hb : b.Listed n) {v : Variable}
    {rest : List Variable} (h : b.vars = v :: rest) (x : Bool) :
    b.follow ⟨v, x⟩ = ⟨rest, b.model.insert v x⟩ := by
  have hnodup : (v :: rest).Nodup := by
    rw [← h, hb.vars_eq]
    exact (Variable.nodup_upTo n).filter _
  -- the variable decided does not come again among the others
  have hrest : without rest v = rest := by
    rw [without, List.filter_eq_self]
    intro w hw
    have hne : w ≠ v := fun e => (List.nodup_cons.mp hnodup).1 (e ▸ hw)
    simpa using hne
  simp only [Branch.follow, h, without, List.filter_cons, bne_self_eq_false, Bool.false_eq_true,
    ↓reduceIte]
  rw [← without, hrest]

/-- Some valuation extends the model of the branch and makes all clauses true. -/
def Branch.Solvable (clauses : List Clause) (b : Branch) : Prop :=
  ∃ σ, b.model.ExtendedBy σ ∧ AllHold σ clauses

/-- A move that is forced gives a value to an open variable, which is listed or occurs in a clause. -/
lemma Branch.Listed.of_forced {n : Nat} {clauses : List Clause} {b : Branch} (hb : b.Listed n)
    {move : Move}
    (h : pureMove? clauses b.vars b.model = some move ∨ unitMove? clauses b.model = some move) :
    Within n clauses move.var ∧ b.model.find? move.var = none := by
  rcases h with hp | hu
  · obtain ⟨hle, hopen⟩ := hb.mem_vars_iff.mp (mem_of_pureMove? hp)
    exact ⟨.inl hle, hopen⟩
  · obtain ⟨hopen, hocc⟩ := exists_literal_of_unitMove? hu
    exact ⟨.inr hocc, hopen⟩

/-- A move that is forced gives an open variable of the formula a value. -/
lemma Branch.Proper.of_forced {n : Nat} {clauses : List Clause} {b : Branch} (hb : b.Proper n)
    (hc : ∀ c ∈ clauses, ∀ l ∈ c, l.var.index ≤ n) {move : Move}
    (h : pureMove? clauses b.vars b.model = some move ∨ unitMove? clauses b.model = some move) :
    move.var.index ≤ n ∧ b.model.find? move.var = none := by
  obtain ⟨hwithin, hopen⟩ := hb.toListed.of_forced h
  exact ⟨hwithin.index_le hc, hopen⟩

/-- A branch has a solution exactly if it has one after a forced move. -/
lemma Branch.solvable_follow_iff {clauses : List Clause} {b : Branch} {move : Move}
    (hopen : b.model.find? move.var = none)
    (h : pureMove? clauses b.vars b.model = some move ∨ unitMove? clauses b.model = some move) :
    (b.follow move).Solvable clauses ↔ b.Solvable clauses := by
  constructor
  · rintro ⟨σ, hσ, hall⟩
    exact ⟨σ, hσ.of_insert hopen, hall⟩
  · rintro ⟨σ, hσ, hall⟩
    rcases h with hp | hu
    · exact ⟨_, hσ.insert_update, hall.update_of_pureMove? hp hopen hσ⟩
    · exact ⟨σ, hσ.insert_of_eq (eq_of_unitMove? hu hσ hall), hall⟩

/-- A branch has a solution exactly if it has one with its first variable true or false. -/
lemma Branch.Listed.solvable_branch_iff {n : Nat} {clauses : List Clause} {b : Branch}
    (hb : b.Listed n) {v : Variable} {rest : List Variable} (h : b.vars = v :: rest) :
    b.Solvable clauses ↔
      (b.follow ⟨v, true⟩).Solvable clauses ∨ (b.follow ⟨v, false⟩).Solvable clauses := by
  have hopen : b.model.find? v = none := (hb.mem_vars_iff.mp (h ▸ List.mem_cons_self)).2
  constructor
  · rintro ⟨σ, hσ, hall⟩
    cases hv : σ v with
    | true => exact .inl ⟨σ, hσ.insert_of_eq hv, hall⟩
    | false => exact .inr ⟨σ, hσ.insert_of_eq hv, hall⟩
  · rintro (⟨σ, hσ, hall⟩ | ⟨σ, hσ, hall⟩) <;>
      exact ⟨σ, hσ.of_insert hopen, hall⟩

/-- If no variable is listed, an undecided clause has one that is beyond `n`. -/
lemma Branch.Listed.exists_beyond {n : Nat} {clauses : List Clause} {b : Branch} (hb : b.Listed n)
    (h : Undecided clauses b.model) (hv : b.vars = []) :
    ∃ c ∈ clauses, ∃ l ∈ c, n < l.var.index := by
  obtain ⟨c, hcm, hnone⟩ := h.exists_none
  obtain ⟨-, -, l, hl, hopen⟩ := Model.clauseValue?_eq_none_iff.mp hnone
  refine ⟨c, hcm, l, hl, Nat.lt_of_not_le ?_⟩
  intro hle
  have hmem := hb.mem_vars_iff.mpr ⟨hle, hopen⟩
  rw [hv] at hmem
  cases hmem

/-- A proper branch with an undecided clause has a variable left to decide. -/
lemma Branch.Proper.vars_ne_nil {n : Nat} {clauses : List Clause} {b : Branch} (hb : b.Proper n)
    (hc : ∀ c ∈ clauses, ∀ l ∈ c, l.var.index ≤ n) (h : Undecided clauses b.model) :
    b.vars ≠ [] := by
  intro hv
  obtain ⟨c, hcm, l, hl, hlt⟩ := hb.toListed.exists_beyond h hv
  exact absurd (hc c hcm l hl) (Nat.not_le.mpr hlt)

/-- A proper branch is never stuck. -/
lemma Branch.Proper.step_ne_stuck {n : Nat} {clauses : List Clause} {b : Branch} (hb : b.Proper n)
    (hc : ∀ c ∈ clauses, ∀ l ∈ c, l.var.index ≤ n) : step clauses b ≠ .stuck := by
  intro h
  have ho := h ▸ step_outcome clauses b
  cases ho with
  | stuck hund hvars => exact hb.vars_ne_nil hc hund hvars

/-! ### Runs -/

/-- What is known when the search over `n` variables ends with a result from a stack of branches. -/
inductive Ending (n : Nat) (clauses : List Clause) (work : List Branch) :
    Except Error (Model × Counts) → Prop where
  | solved {m counts} :
    (∀ c ∈ clauses, m.clauseValue? c = some true) →
    (∀ v x, m.find? v = some x → Within n clauses v) →
    Ending n clauses work (.ok (m, counts))
  | refuted :
    (∀ b ∈ work, ¬ b.Solvable clauses) →
    Ending n clauses work (.error (.unsatisfiable .general))
  | stuck {c l} :
    c ∈ clauses →
    l ∈ c →
    n < l.var.index →
    Ending n clauses work (.error .noVariableLeft)

/-- The end of a run does not depend on branches that have a solution only if others have one. -/
lemma Ending.of_solvable {n : Nat} {clauses : List Clause} {work work' : List Branch}
    {result : Except Error (Model × Counts)} (h : Ending n clauses work result)
    (hw : ∀ b ∈ work', b.Solvable clauses → ∃ b' ∈ work, b'.Solvable clauses) :
    Ending n clauses work' result := by
  cases h with
  | solved hall hwithin => exact .solved hall hwithin
  | refuted hnone =>
    refine .refuted ?_
    intro b hb hsol
    obtain ⟨b', hb', hsol'⟩ := hw b hb hsol
    exact hnone b' hb' hsol'
  | stuck hcm hl hlt => exact .stuck hcm hl hlt

/-- A run from orderly branches ends in one of these ways, whatever variables the clauses have. -/
lemma ending_run {n : Nat} {clauses : List Clause} (counts : Counts) (work : List Branch)
    (hw : ∀ b ∈ work, b.Orderly n clauses) : Ending n clauses work (run clauses counts work) := by
  -- an error at the end of the run refutes every branch that was pending on the way
  fun_induction run clauses counts work with
  | case1 counts => exact .refuted (by simp)
  | case2 counts b work h =>
    have ho := h ▸ step_outcome clauses b
    cases ho with
    | solved hall => exact .solved hall (hw b (by simp)).within
  | case3 counts b work h ih =>
    obtain ⟨-, hw⟩ := List.forall_mem_cons.mp hw
    have ho := h ▸ step_outcome clauses b
    cases ho with
    | failed hcm hfalse =>
      apply (ih hw).of_solvable
      intro b' hb' hsol
      rcases List.mem_cons.mp hb' with rfl | hb'
      · obtain ⟨σ, hσ, hall⟩ := hsol
        exact absurd (hall _ hcm) (hσ.not_holds_of_false hfalse)
      · exact ⟨b', hb', hsol⟩
  | case4 counts b work move h ih =>
    obtain ⟨hb, hw⟩ := List.forall_mem_cons.mp hw
    have hmove := eq_some_of_step_forced h
    obtain ⟨hwithin, hopen⟩ := hb.toListed.of_forced hmove
    -- the branch after the move stands for this one, although the other value is never tried
    apply (ih (List.forall_mem_cons.mpr ⟨hb.follow hwithin, hw⟩)).of_solvable
    intro b' hb' hsol
    rcases List.mem_cons.mp hb' with rfl | hb'
    · exact ⟨_, List.mem_cons_self, (Branch.solvable_follow_iff hopen hmove).mpr hsol⟩
    · exact ⟨b', List.mem_cons_of_mem _ hb', hsol⟩
  | case5 counts b work v rest h ih =>
    obtain ⟨hb, hw⟩ := List.forall_mem_cons.mp hw
    have hvars := vars_eq_of_step_branch h
    have hwithin : Within n clauses v := .inl (hb.mem_vars_iff.mp (hvars ▸ List.mem_cons_self)).1
    rw [← hb.follow_eq hvars true, ← hb.follow_eq hvars false] at ih ⊢
    have hpos : (b.follow ⟨v, true⟩).Orderly n clauses := hb.follow hwithin
    have hneg : (b.follow ⟨v, false⟩).Orderly n clauses := hb.follow hwithin
    have hw' := List.forall_mem_cons.mpr ⟨hpos, List.forall_mem_cons.mpr ⟨hneg, hw⟩⟩
    apply (ih hw').of_solvable
    intro b' hb' hsol
    rcases List.mem_cons.mp hb' with rfl | hb'
    · rcases (hb.solvable_branch_iff hvars).mp hsol with htrue | hfalse
      · exact ⟨_, List.mem_cons_self, htrue⟩
      · exact ⟨_, List.mem_cons_of_mem _ List.mem_cons_self, hfalse⟩
    · exact ⟨b', List.mem_cons_of_mem _ (List.mem_cons_of_mem _ hb'), hsol⟩
  | case6 counts b work h =>
    have ho := h ▸ step_outcome clauses b
    cases ho with
    | stuck hund hvars =>
      -- the open variable of an undecided clause would be listed if it were one of the formula
      obtain ⟨c, hcm, l, hl, hlt⟩ := (hw b (by simp)).exists_beyond hund hvars
      exact .stuck hcm hl hlt

/-- A run from proper branches ends with a model under which all clauses are true, or else no branch
has a solution. -/
lemma run_spec {n : Nat} {clauses : List Clause} (hc : ∀ c ∈ clauses, ∀ l ∈ c, l.var.index ≤ n)
    (counts : Counts) (work : List Branch) (hw : ∀ b ∈ work, b.Proper n) :
    (∃ m counts', run clauses counts work = .ok (m, counts') ∧
      (∀ c ∈ clauses, m.clauseValue? c = some true) ∧ ∀ v x, m.find? v = some x → v.index ≤ n) ∨
    run clauses counts work = .error (.unsatisfiable .general) ∧
      ∀ b ∈ work, ¬ b.Solvable clauses := by
  have hend := ending_run counts work fun b hb => (hw b hb).orderly clauses
  cases hr : run clauses counts work with
  | ok result =>
    rw [hr] at hend
    cases hend with
    | @solved m counts' hall hwithin =>
      exact .inl ⟨m, counts', rfl, hall, fun v x hv => (hwithin v x hv).index_le hc⟩
  | error e =>
    rw [hr] at hend
    cases hend with
    | refuted hnone => exact .inr ⟨rfl, hnone⟩
    | stuck hcm hl hlt => exact absurd (hc _ hcm _ hl) (Nat.not_le.mpr hlt)

end Clausal.Solver.Search
