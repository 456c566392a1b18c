import Clausal.Proofs.Horn.Strike
import Clausal.Proofs.Satisfaction

/-!
# Propagating facts

The invariant of the propagation. The clauses are what the original ones are without the negations
of the variables that are true so far (`Clause.residue`), and no clause is empty. A fact need not wait
on the queue: it may have been taken off, or propagated before. Propagation derives what follows from
the variables on the queue, so these and the variables that are true so far are true in every
valuation that is closed under what propagation derives (`Workspace.Closed`). Main statement:
propagation ends with an empty queue in this state, or nothing is left of some clause under any closed
valuation (`propagate_spec`). If the facts were on the queue, the variables that are true at the end
are true in all solutions (`Closing.propagating`).
-/

namespace Clausal

/-! ### What is left of a clause -/

/-- What is left of a clause without the negations of the variables that are true. -/
def Clause.residue (σ : Valuation) (c : Clause) : Clause :=
  ⟨c.literals.filter fun l => !(l.negated && σ l.var), c.nodup.filter _⟩

/-- What is left of a clause are its literals but for the negations of true variables. -/
lemma Clause.mem_residue {σ : Valuation} {c : Clause} {l : Literal} :
    l ∈ c.residue σ ↔ l ∈ c ∧ (l.negated = true → σ l.var = false) := by
  rw [← mem_literals, residue, List.mem_filter, mem_literals]
  cases l.negated <;> simp

/-- If no variable is true, all of a clause is left. -/
lemma Clause.residue_eq_self {σ : Valuation} {c : Clause} (h : ∀ v, σ v = false) :
    c.residue σ = c := by
  apply Clause.ext_literals
  simp [residue, h]

/-- Making one more variable true takes away its negation. -/
lemma Clause.residue_update (σ : Valuation) (c : Clause) (v : Variable) :
    c.residue (Function.update σ v true) = (c.residue σ).erase ⟨v, true⟩ := by
  apply Clause.ext_literals
  simp only [erase, residue]
  rw [List.Nodup.erase_eq_filter (c.nodup.filter _), List.filter_filter]
  apply List.filter_congr
  rintro ⟨w, b⟩ -
  by_cases hw : w = v
  · subst hw
    cases b <;> simp
  · simp [hw]

/-- What is left of a clause under more true variables is left of what was left under fewer. -/
lemma Clause.residue_residue {σ τ : Valuation} (c : Clause) (h : ∀ v, σ v = true → τ v = true) :
    (c.residue σ).residue τ = c.residue τ := by
  apply Clause.ext_literals
  simp only [residue, List.filter_filter]
  apply List.filter_congr
  rintro ⟨v, b⟩ -
  cases hσ : σ v with
  | false => simp
  | true => simp [h v hσ]

/-- A fact that is left of a clause is left of it when more variables are true. -/
lemma Clause.fact?_residue_of_le {σ τ : Valuation} {c : Clause} {v : Variable}
    (hf : (c.residue σ).fact? = some v) (h : ∀ v, σ v = true → τ v = true) :
    (c.residue τ).fact? = some v := by
  rw [fact?_eq_some_iff] at hf ⊢
  rw [← c.residue_residue h]
  show (c.residue σ).literals.filter _ = _
  rw [hf]
  rfl

/-- If nothing is left of a clause, nothing is left of it when more variables are true. -/
lemma Clause.residue_eq_nil_of_le {σ τ : Valuation} {c : Clause}
    (hnil : (c.residue σ).literals = []) (h : ∀ v, σ v = true → τ v = true) :
    (c.residue τ).literals = [] := by
  rw [← c.residue_residue h]
  show (c.residue σ).literals.filter _ = _
  rw [hnil]
  rfl

/-- A valuation that makes the clause and the true variables true makes what is left true. -/
lemma Clause.holds_residue {σ τ : Valuation} {c : Clause} (h : c.Holds τ)
    (hle : ∀ v, σ v = true → τ v = true) : (c.residue σ).Holds τ := by
  obtain ⟨l, hl, ht⟩ := h
  refine ⟨l, mem_residue.mpr ⟨hl, ?_⟩, ht⟩
  intro hn
  cases hv : σ l.var with
  | false => rfl
  | true =>
    have htrue : τ l.var = true := hle l.var hv
    rw [show τ l.var = l.value from ht, Literal.value, hn] at htrue
    cases htrue

/-- Where a fact holds, its variable is true. -/
lemma Clause.eq_true_of_fact? {σ : Valuation} {c : Clause} {v : Variable}
    (hf : c.fact? = some v) (h : c.Holds σ) : σ v = true := by
  obtain ⟨l, hl, ht⟩ := h
  rw [← mem_literals, fact?_eq_some_iff.mp hf, List.mem_singleton] at hl
  subst hl
  exact ht

/-- A fact has its variable as a literal, not negated. -/
lemma Clause.mem_of_fact? {c : Clause} {v : Variable} (hf : c.fact? = some v) :
    (⟨v, false⟩ : Literal) ∈ c := by
  rw [← mem_literals, fact?_eq_some_iff.mp hf]
  exact List.mem_singleton.mpr rfl

/-- The value at the place of a variable is the one that the valuation gives it. -/
lemma Assignment.valuation_eq {a : Assignment} {v : Variable} {b : Bool}
    (h : a[v.place]? = some b) : a.valuation v = b := by
  simp [valuation, h]

/-- The clauses registered for a negation are those with an entry in the register. -/
lemma Formula.mem_withNegation {F : Formula} {v : Variable} {r : ClauseRef} :
    r ∈ F.withNegation v ↔ (v, r) ∈ F.register := by
  simp [withNegation]

namespace Workspace

/-- The formula with another queue. -/
def withQueue (W : Workspace) (q : List Variable) : Workspace :=
  { W with formula := { W.formula with queue := q } }

/-- A valuation makes the clauses and the variables on the queue true. -/
def Admits (W : Workspace) (σ : Valuation) : Prop :=
  W.toCnf.Holds σ ∧ ∀ v ∈ W.formula.queue, σ v = true

/-- A valuation is closed if it makes the variables on the queue true, and the variable of every fact
that it leaves of a clause with further literals. -/
structure Closed (W : Workspace) (σ : Valuation) : Prop where
  queued : ∀ v ∈ W.formula.queue, σ v = true
  derived : ∀ c ∈ W.toCnf.clauses, ∀ v, (c.residue σ).fact? = some v →
    c.fact? = some v ∨ σ v = true

/-- A valuation refutes a formula if it leaves nothing of some clause. -/
def Refuted (W : Workspace) (σ : Valuation) : Prop :=
  ∃ c ∈ W.toCnf.clauses, (c.residue σ).literals = []

/-- A valuation that makes the clauses and the queue true is closed, and leaves something of every
clause. -/
lemma Admits.closed {W : Workspace} {σ : Valuation} (h : W.Admits σ) : W.Closed σ where
  queued := h.2
  derived := by
    intro c hc v hf
    exact .inr (Clause.eq_true_of_fact? hf (Clause.holds_residue (h.1 c hc) fun _ hv => hv))

/-- What makes the clauses true leaves something of each of them. -/
lemma Admits.not_refuted {W : Workspace} {σ : Valuation} (h : W.Admits σ) : ¬ W.Refuted σ := by
  rintro ⟨c, hc, hnil⟩
  obtain ⟨l, hl, -⟩ := Clause.holds_residue (h.1 c hc) fun _ hv => hv
  rw [← Clause.mem_literals, hnil] at hl
  cases hl

/-- The clauses of a formula hold exactly if those at all its references do. -/
lemma holds_toCnf_iff {W : Workspace} {σ : Valuation} :
    W.toCnf.Holds σ ↔ ∀ r ∈ W.formula.refs, (W.arena.get r).Holds σ := by
  simp [Cnf.Holds, Workspace.toCnf, Formula.toCnf, Formula.clauses]

/-- A formula stays coherent when the first variable is taken off its queue. -/
lemma Coherent.pop {n : Nat} {W : Workspace} {v : Variable} {rest : List Variable}
    (h : W.Coherent n) (hq : W.formula.queue = v :: rest) : (W.withQueue rest).Coherent n where
  toIndexed := h.toIndexed.requeue (List.nodup_cons.mp (hq ▸ h.nodup_queue)).2
  queue_index_le := by
    intro w hw
    exact h.queue_index_le w (hq ▸ List.mem_cons_of_mem v hw)

end Workspace

namespace Solver.Horn

open Workspace

variable {n : Nat} {W₀ W W' : Workspace} {a : Assignment} {v : Variable} {rest : List Variable}

/-- Striking out continues the arena. -/
lemma Struck.continues {rs : List ClauseRef} (h : Struck v rs W W') :
    W.arena.Continues W'.arena where
  size_le := Nat.le_of_eq h.size_eq.symm
  mem_of_mem := by
    intro r _ l hl
    rw [h.get_eq] at hl
    split at hl
    · exact (Clause.mem_erase.mp hl).1
    · exact hl

/-- Striking out of clauses of a formula keeps it coherent, since only facts come to the queue. -/
lemma Struck.coherent {rs : List ClauseRef} (h : Struck v rs W W') (hc : W.Coherent n)
    (hrs : ∀ r ∈ rs, r ∈ W.formula.refs) : W'.Coherent n where
  toIndexed := hc.toIndexed.evolve h.continues h.numVariables_eq h.refs_eq h.register_eq
    (h.nodup_queue hc.nodup_queue)
  queue_index_le := by
    intro w hw
    rcases (h.mem_queue_iff w).mp hw with hw | ⟨-, s, hs, -, hf⟩
    · exact hc.queue_index_le w hw
    · have hl := (Clause.mem_erase.mp (Clause.mem_of_fact? hf)).1
      exact hc.index_le s (hrs s hs) _ hl

/-- Striking a negation out of the clauses registered for it strikes it out of all clauses. -/
lemma Struck.get_eq_erase (h : Struck v (W.formula.withNegation v) W W') (hc : W.Coherent n)
    {r : ClauseRef} (hr : r ∈ W.formula.refs) :
    W'.arena.get r = (W.arena.get r).erase ⟨v, true⟩ := by
  rw [h.get_eq]
  split
  · rfl
  · next hnot =>
    rw [Formula.mem_withNegation] at hnot
    exact (Clause.erase_eq_self fun hv => hnot (hc.registered r hr v hv)).symm

/-- What was true or waiting still is after the first variable of the queue was made true. -/
lemma Struck.true_or_queued {rs : List ClauseRef} {σ : Valuation}
    (h : Struck v rs (W.withQueue rest) W') (hq : W.formula.queue = v :: rest) {w : Variable}
    (hw : w ∈ W.formula.queue ∨ σ w = true) :
    w ∈ W'.formula.queue ∨ Function.update σ v true w = true := by
  by_cases hwv : w = v
  · subst hwv
    exact .inr (Function.update_self ..)
  rw [Function.update_of_ne hwv]
  rcases hw with hw | hw
  · rw [hq, List.mem_cons] at hw
    exact .inl ((h.mem_queue_iff w).mpr (.inl (hw.resolve_left hwv)))
  · exact .inr hw

/-! ### The invariant -/

/-- The state of a propagation that began with `W₀`, not all facts of which need be on the queue. -/
structure Closing (n : Nat) (W₀ W : Workspace) (a : Assignment) : Prop where
  coherent : W.Coherent n
  length_eq : a.length = n
  refs_eq : W.formula.refs = W₀.formula.refs
  register_eq : W.formula.register = W₀.formula.register
  get_eq : ∀ r ∈ W.formula.refs, W.arena.get r = (W₀.arena.get r).residue a.valuation
  ne_nil : ∀ r ∈ W.formula.refs, (W.arena.get r).literals ≠ []
  queued : ∀ v ∈ W₀.formula.queue, v ∈ W.formula.queue ∨ a.valuation v = true
  derived : ∀ r ∈ W.formula.refs, ∀ v, (W.arena.get r).fact? = some v →
    (W₀.arena.get r).fact? = some v ∨ v ∈ W.formula.queue ∨ a.valuation v = true
  forced : ∀ σ, W₀.Closed σ → ∀ v, v ∈ W.formula.queue ∨ a.valuation v = true → σ v = true

/-- A formula without empty clauses is in this state at the beginning, when no variable is true. -/
lemma Closing.start (h : W.Coherent n)
    (hne : ∀ r ∈ W.formula.refs, (W.arena.get r).literals ≠ []) :
    Closing n W W (Assignment.allFalse n) where
  coherent := h
  length_eq := List.length_replicate
  refs_eq := rfl
  register_eq := rfl
  get_eq := by
    intro r _
    exact (Clause.residue_eq_self (Assignment.valuation_allFalse n)).symm
  ne_nil := hne
  queued := fun v hv => .inl hv
  derived := fun r _ v hf => .inl hf
  forced := by
    rintro σ hσ v (hv | hv)
    · exact hσ.queued v hv
    · rw [Assignment.valuation_allFalse] at hv
      cases hv

/-- Taking a variable off the queue that is true already keeps the state. -/
lemma Closing.skip (h : Closing n W₀ W a) (hq : W.formula.queue = v :: rest)
    (hv : a.valuation v = true) : Closing n W₀ (W.withQueue rest) a := by
  have hmem : ∀ w, w ∈ W.formula.queue ∨ a.valuation w = true → w ∈ rest ∨ a.valuation w = true := by
    rintro w (hw | hw)
    · rw [hq, List.mem_cons] at hw
      rcases hw with rfl | hw
      · exact .inr hv
      · exact .inl hw
    · exact .inr hw
  exact {
    coherent := h.coherent.pop hq
    length_eq := h.length_eq
    refs_eq := h.refs_eq
    register_eq := h.register_eq
    get_eq := h.get_eq
    ne_nil := h.ne_nil
    queued := fun w hw => hmem w (h.queued w hw)
    derived := fun r hr w hf => (h.derived r hr w hf).imp_right (hmem w)
    forced := by
      rintro σ hσ w (hw | hw)
      · exact h.forced σ hσ w (.inl (hq ▸ List.mem_cons_of_mem v hw))
      · exact h.forced σ hσ w (.inr hw) }

/-- What is true together with the first variable of the queue is true in every closed valuation. -/
lemma Closing.update_le (h : Closing n W₀ W a) (hq : W.formula.queue = v :: rest) {σ : Valuation}
    (hσ : W₀.Closed σ) (w : Variable) (hw : Function.update a.valuation v true w = true) :
    σ w = true := by
  by_cases hwv : w = v
  · exact h.forced σ hσ w (.inl (by simp [hq, hwv]))
  · rw [Function.update_of_ne hwv] at hw
    exact h.forced σ hσ w (.inr hw)

/-- Striking one more variable out of a clause leaves what is left of the original one when this
variable is true. -/
lemma Closing.erase_eq (h : Closing n W₀ W a) {r : ClauseRef} (hr : r ∈ W.formula.refs)
    (v : Variable) : (W.arena.get r).erase ⟨v, true⟩ =
      (W₀.arena.get r).residue (Function.update a.valuation v true) := by
  rw [h.get_eq r hr, Clause.residue_update]

/-- The original of a clause is one of the clauses of the formula at the beginning. -/
lemma Closing.mem_clauses (h : Closing n W₀ W a) {r : ClauseRef} (hr : r ∈ W.formula.refs) :
    W₀.arena.get r ∈ W₀.toCnf.clauses :=
  List.mem_map_of_mem (h.refs_eq ▸ hr)

/-- The clauses registered for a negation are clauses of the formula. -/
lemma Closing.mem_refs (h : Closing n W₀ W a) {r : ClauseRef}
    (hr : r ∈ W.formula.withNegation v) : r ∈ W.formula.refs :=
  h.coherent.ref_of_registered v r (Formula.mem_withNegation.mp hr)

/-- A fact that is left when the first variable of the queue is struck out of a clause is true in
every closed valuation. -/
lemma Closing.forced_fact (h : Closing n W₀ W a) (hq : W.formula.queue = v :: rest) {σ : Valuation}
    (hσ : W₀.Closed σ) {r : ClauseRef} (hr : r ∈ W.formula.refs) {w : Variable}
    (hv : ⟨v, true⟩ ∈ W.arena.get r)
    (hf : ((W.arena.get r).erase ⟨v, true⟩).fact? = some w) : σ w = true := by
  rw [h.erase_eq hr] at hf
  have hleft := Clause.fact?_residue_of_le hf (h.update_le hq hσ)
  rcases hσ.derived _ (h.mem_clauses hr) w hleft with hfact | hw
  · -- a clause that has a negation was no fact before
    rw [h.get_eq r hr, Clause.mem_residue, ← Clause.mem_literals,
      Clause.fact?_eq_some_iff.mp hfact] at hv
    simp at hv
  · exact hw

/-- The facts that are left after striking are those that the clauses were before, or their variable is
true or on the queue. -/
lemma Closing.derived_struck (h : Closing n W₀ W a) (hq : W.formula.queue = v :: rest)
    (hs : Struck v (W.formula.withNegation v) (W.withQueue rest) W') {r : ClauseRef}
    (hr : r ∈ W.formula.refs) {w : Variable} (hf : (W'.arena.get r).fact? = some w) :
    (W₀.arena.get r).fact? = some w ∨
      w ∈ W'.formula.queue ∨ Function.update a.valuation v true w = true := by
  rw [hs.get_eq_erase (h.coherent.pop hq) hr] at hf
  change ((W.arena.get r).erase ⟨v, true⟩).fact? = some w at hf
  by_cases hvr : ⟨v, true⟩ ∈ W.arena.get r
  · by_cases hwv : w = v
    · exact .inr (hs.true_or_queued hq (.inl (hwv ▸ hq ▸ List.mem_cons_self)))
    · have hreg := Formula.mem_withNegation.mpr (h.coherent.registered r hr v hvr)
      exact .inr (.inl ((hs.mem_queue_iff w).mpr (.inr ⟨hwv, r, hreg, hvr, hf⟩)))
  · rw [Clause.erase_eq_self hvr] at hf
    exact (h.derived r hr w hf).imp_right (hs.true_or_queued hq)

/-- What is true or on the queue after striking is true in every closed valuation. -/
lemma Closing.forced_struck (h : Closing n W₀ W a) (hq : W.formula.queue = v :: rest)
    (hs : Struck v (W.formula.withNegation v) (W.withQueue rest) W') {σ : Valuation}
    (hσ : W₀.Closed σ) {w : Variable}
    (hw : w ∈ W'.formula.queue ∨ Function.update a.valuation v true w = true) : σ w = true := by
  rw [hs.mem_queue_iff] at hw
  rcases hw with (hw | ⟨-, s, hs', hv, hf⟩) | hw
  · exact h.forced σ hσ w (.inl (hq ▸ List.mem_cons_of_mem v hw))
  · exact h.forced_fact hq hσ (h.mem_refs hs') hv hf
  · exact h.update_le hq hσ w hw

/-- Making the first variable of the queue true and striking out its negation keeps the state. -/
lemma Closing.advance (h : Closing n W₀ W a) (hq : W.formula.queue = v :: rest)
    (hs : Struck v (W.formula.withNegation v) (W.withQueue rest) W') :
    Closing n W₀ W' (a.set v.place true) := by
  have hplace : v.place < a.length := by
    rw [h.length_eq]
    exact Variable.place_lt (h.coherent.queue_index_le v (hq ▸ List.mem_cons_self))
  have hset := Assignment.valuation_set (b := true) hplace
  have hrefs : W'.formula.refs = W.formula.refs := hs.refs_eq
  have hget : ∀ r ∈ W.formula.refs, W'.arena.get r = (W.arena.get r).erase ⟨v, true⟩ := fun r hr =>
    hs.get_eq_erase (h.coherent.pop hq) hr
  exact {
    coherent := hs.coherent (h.coherent.pop hq) fun r hr => h.mem_refs hr
    length_eq := (List.length_set ..).trans h.length_eq
    refs_eq := hrefs.trans h.refs_eq
    register_eq := hs.register_eq.trans h.register_eq
    get_eq := by
      rw [hrefs]
      intro r hr
      rw [hget r hr, h.erase_eq hr, hset]
    ne_nil := by
      rw [hrefs]
      intro r hr
      rw [hget r hr]
      apply Clause.erase_ne_nil (h.ne_nil r hr)
      intro hvr
      exact hs.size_ne_one r (Formula.mem_withNegation.mpr (h.coherent.registered r hr v hvr)) hvr
    queued := by
      rw [hset]
      intro w hw
      exact hs.true_or_queued hq (h.queued w hw)
    derived := by
      rw [hrefs, hset]
      intro r hr w hf
      exact h.derived_struck hq hs hr hf
    forced := by
      rw [hset]
      intro σ hσ w hw
      exact h.forced_struck hq hs hσ hw }

/-- Every closed valuation refutes the formula if the propagation comes to a clause that only negates
the first variable of the queue. -/
lemma Closing.refuted {r : ClauseRef} (h : Closing n W₀ W a) (hq : W.formula.queue = v :: rest)
    (hr : r ∈ W.formula.refs) (hl : (W.arena.get r).literals = [⟨v, true⟩]) {σ : Valuation}
    (hσ : W₀.Closed σ) : W₀.Refuted σ := by
  refine ⟨W₀.arena.get r, h.mem_clauses hr, ?_⟩
  have hnil : ((W₀.arena.get r).residue (Function.update a.valuation v true)).literals = [] := by
    rw [← h.erase_eq hr]
    show (W.arena.get r).literals.erase ⟨v, true⟩ = []
    rw [hl, List.erase_cons_head]
  exact Clause.residue_eq_nil_of_le hnil (h.update_le hq hσ)

/-- The propagation comes to an end with nothing on the queue, or every closed valuation refutes the
formula. -/
lemma propagate_spec (removed : Nat) (h : Closing n W₀ W a) :
    (∃ W' a' k, propagate W a removed = (W', .ok (a', k)) ∧ Closing n W₀ W' a' ∧
      W'.formula.queue = []) ∨
    ∃ W', propagate W a removed = (W', .error (.unsatisfiable .horn)) ∧
      ∀ σ, W₀.Closed σ → W₀.Refuted σ := by
  fun_induction propagate W a removed with
  | case1 W a removed hq => exact .inl ⟨W, a, removed, rfl, h, hq⟩
  | case2 W a removed v rest hq W₁ hnone =>
    -- the queue names no variable beyond the assignment
    have hlt : v.place < a.length := by
      rw [h.length_eq]
      exact Variable.place_lt (h.coherent.queue_index_le v (hq ▸ List.mem_cons_self))
    rw [List.getElem?_eq_getElem hlt] at hnone
    cases hnone
  | case3 W a removed v rest hq W₁ htrue ih =>
    exact ih (h.skip hq (Assignment.valuation_eq htrue))
  | case4 W a removed v rest hq W₁ hfalse W₂ e hs =>
    have hlt : ∀ r ∈ W₁.formula.withNegation v, r < W₁.arena.slots.size := fun r hr =>
      h.coherent.ref_lt r (h.mem_refs hr)
    rcases strike_spec hlt with ⟨W', k, hok, -⟩ | ⟨W', rs₁, r, rs₂, herr, hrs, -, hl⟩
    · rw [hs] at hok
      cases hok
    · rw [hs] at herr
      cases herr
      have hr : r ∈ W₁.formula.withNegation v := hrs ▸ List.mem_append_right _ List.mem_cons_self
      exact .inr ⟨W₂, rfl, fun σ hσ => h.refuted hq (h.mem_refs hr) hl hσ⟩
  | case5 W a removed v rest hq W₁ hfalse W₂ k hs ih =>
    have hlt : ∀ r ∈ W₁.formula.withNegation v, r < W₁.arena.slots.size := fun r hr =>
      h.coherent.ref_lt r (h.mem_refs hr)
    rcases strike_spec hlt with ⟨W', k, hok, hstruck⟩ | ⟨W', rs₁, r, rs₂, herr, -⟩
    · rw [hs] at hok
      cases hok
      exact ih (h.advance hq hstruck)
    · rw [hs] at herr
      cases herr

/-- When nothing is left on the queue, the variables that are true are closed. -/
lemma Closing.closed (h : Closing n W₀ W a) (hq : W.formula.queue = []) :
    W₀.Closed a.valuation where
  queued := by
    intro v hv
    simpa [hq] using h.queued v hv
  derived := by
    intro c hc v hf
    obtain ⟨r, hr, rfl⟩ := List.mem_map.mp hc
    rw [← h.refs_eq] at hr
    rw [← h.get_eq r hr] at hf
    simpa [hq] using h.derived r hr v hf

/-- What is true so far leaves something of every clause. -/
lemma Closing.not_refuted (h : Closing n W₀ W a) : ¬ W₀.Refuted a.valuation := by
  rintro ⟨c, hc, hnil⟩
  obtain ⟨r, hr, rfl⟩ := List.mem_map.mp hc
  rw [← h.refs_eq] at hr
  rw [← h.get_eq r hr] at hnil
  exact h.ne_nil r hr hnil

/-! ### Facts on the queue -/

/-- The state of the propagation that began with `W₀`, if all facts were on the queue. -/
structure Propagating (n : Nat) (W₀ W : Workspace) (a : Assignment) : Prop where
  coherent : W.Coherent n
  length_eq : a.length = n
  refs_eq : W.formula.refs = W₀.formula.refs
  register_eq : W.formula.register = W₀.formula.register
  get_eq : ∀ r ∈ W.formula.refs, W.arena.get r = (W₀.arena.get r).residue a.valuation
  ne_nil : ∀ r ∈ W.formula.refs, (W.arena.get r).literals ≠ []
  queued : ∀ v ∈ W₀.formula.queue, v ∈ W.formula.queue ∨ a.valuation v = true
  fact : ∀ r ∈ W.formula.refs, ∀ v, (W.arena.get r).fact? = some v →
    v ∈ W.formula.queue ∨ a.valuation v = true
  forced : ∀ σ, W₀.Admits σ → ∀ v, v ∈ W.formula.queue ∨ a.valuation v = true → σ v = true

/-- If the facts were on the queue, what is true at the end of a propagation is true in all
solutions. -/
lemma Closing.propagating (h : Closing n W₀ W a)
    (hfact : ∀ r ∈ W₀.formula.refs, ∀ v, (W₀.arena.get r).fact? = some v → v ∈ W₀.formula.queue) :
    Propagating n W₀ W a where
  coherent := h.coherent
  length_eq := h.length_eq
  refs_eq := h.refs_eq
  register_eq := h.register_eq
  get_eq := h.get_eq
  ne_nil := h.ne_nil
  queued := h.queued
  fact := by
    intro r hr v hf
    rcases h.derived r hr v hf with hf | hv
    · exact h.queued v (hfact r (h.refs_eq ▸ hr) v hf)
    · exact hv
  forced := fun σ hσ => h.forced σ hσ.closed

/-- Whatever is true so far or comes next is true in all solutions, together with what is left of
the clauses. -/
lemma Propagating.holds_get (h : Propagating n W₀ W a) {σ : Valuation} (hσ : W₀.Admits σ)
    {r : ClauseRef} (hr : r ∈ W.formula.refs) : (W.arena.get r).Holds σ := by
  rw [h.get_eq r hr]
  have hc : (W₀.arena.get r).Holds σ := holds_toCnf_iff.mp hσ.1 r (h.refs_eq ▸ hr)
  exact Clause.holds_residue hc fun v hv => h.forced σ hσ v (.inr hv)

end Solver.Horn

end Clausal
