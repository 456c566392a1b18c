import Clausal.Proofs.Construction
import Mathlib.Data.List.Nodup

/-!
# Formulas built anew

A formula that was built by adding clauses is determined by them: its queue has the variables of the
facts (`Built.queue_eq`), and its register leads to the clauses with a negation
(`Built.map_withNegation`). Main statements: clauses over the variables of a formula are not refused
(`Prepared.addAll_eq_ok`), so that every such list of clauses has its formula (`exists_built`) and
every built formula a copy of its own, which refers to new clauses only (`Built.copy_eq_ok`).
-/

namespace Clausal

/-- Puts the variable of a fact at the end of a queue, unless it is waiting there. -/
def Clause.noteFact (q : List Variable) (c : Clause) : List Variable :=
  match c.fact? with
  | some v => if v ∈ q then q else q ++ [v]
  | none => q

/-- The variables of the facts of a formula, each at the place of its first fact. -/
def Cnf.facts (f : Cnf) : List Variable := f.clauses.foldl Clause.noteFact []

namespace Formula

/-! ### Adding a clause -/

/-- Literals over the variables of a formula are all registered. -/
lemma registerAll_eq_ok {F : Formula} {r : ClauseRef} {ls : List Literal}
    (h : ∀ l ∈ ls, l.var.index ≤ F.numVariables) : ∃ F', F.registerAll r ls = (F', true) := by
  induction ls generalizing F with
  | nil => exact ⟨F, rfl⟩
  | cons l rest ih =>
    obtain ⟨hl, hrest⟩ := List.forall_mem_cons.mp h
    simp only [registerAll, if_neg (Nat.not_lt.mpr hl)]
    split
    · exact ih hrest
    · exact ih hrest

/-- A clause over the variables of a formula is not refused. -/
lemma attach_eq_ok {A : Arena} {F : Formula} {r : ClauseRef}
    (h : ∀ l ∈ A.get r, l.var.index ≤ F.numVariables) : ∃ F', F.attach A r = (F', .ok ()) := by
  obtain ⟨F', hF'⟩ := registerAll_eq_ok (r := r) h
  simp only [attach, hF']
  split
  · exact ⟨_, rfl⟩
  · exact ⟨_, rfl⟩

/-- Adding a clause notes it on the queue if it is a fact. -/
lemma queue_of_attach {A : Arena} {F F' : Formula} {r : ClauseRef}
    (h : F.attach A r = (F', .ok ())) : F'.queue = (A.get r).noteFact F.queue := by
  unfold attach at h
  split at h
  · cases h
  · next G hG =>
    obtain ⟨-, rfl⟩ := registerAll_eq_true hG
    unfold Clause.noteFact
    cases hfact : (A.get r).fact? with
    | some v =>
      rw [hfact] at h
      cases h
      simp only [enqueue]
      split <;> rfl
    | none =>
      rw [hfact] at h
      cases h
      rfl

/-- Among the entries of a clause a variable has one if the clause negates it. -/
lemma filter_entries {r : ClauseRef} {c : Clause} {v : Variable} :
    ((entries r c.literals).filter (·.1 = v)).map (·.2) =
      if (⟨v, true⟩ : Literal) ∈ c then [r] else [] := by
  have hone : (c.literals.filter (·.negated)).filter (fun l => decide (l.var = v)) =
      c.literals.filter (· == ⟨v, true⟩) := by
    rw [List.filter_filter]
    apply List.filter_congr
    rintro ⟨w, b⟩ -
    rw [Bool.eq_iff_iff]
    cases b <;> simp
  have hcount : (c.literals.filter (· == ⟨v, true⟩)) =
      if (⟨v, true⟩ : Literal) ∈ c then [⟨v, true⟩] else [] := by
    rw [List.filter_beq, List.Nodup.count c.nodup]
    simp only [Clause.mem_literals]
    split <;> rfl
  simp only [entries, List.filter_map, Function.comp_def, hone, hcount]
  split <;> rfl

/-- A new clause in the arena does not change those of a formula. -/
lemma clauses_alloc {A : Arena} {F : Formula} (h : ∀ r ∈ F.refs, r < A.slots.size) (c : Clause) :
    F.clauses (A.alloc c).1 = F.clauses A := by
  apply List.map_congr_left
  intro r hr
  exact Arena.get_alloc_of_lt (h r hr)

end Formula

namespace Workspace

/-! ### Formulas built by adding clauses -/

/-- What holds of a formula without clauses, and goes on to hold when clauses are made and added,
holds of every built formula. -/
theorem Built.induct {n : Nat} {motive : ∀ W : Workspace, W.Built n → Prop}
    (start : ∀ A, motive _ (.start A))
    (make : ∀ {A F} c (h : Built n ⟨A, F⟩), motive _ h → motive _ (h.make c))
    (add : ∀ {A F F' r} (h : Built n ⟨A, F⟩) (hr : r < A.slots.size)
      (ha : F.attach A r = (F', .ok ())), motive _ h → motive _ (h.add hr ha))
    {W : Workspace} (h : W.Built n) : motive W h := by
  -- the list of variables put on the queue stays empty, which leaves no case for `push`
  have main : ∀ {vs W}, Prepared n vs W → vs = [] → ∀ h : W.Built n, motive W h := by
    intro vs W h
    induction h with
    | start A => exact fun _ _ => start A
    | make c h ih =>
      rintro rfl -
      exact make c h (ih rfl h)
    | add h hr ha ih =>
      rintro rfl -
      exact add h hr ha (ih rfl h)
    | push => simp
  exact main h rfl h

/-- The queue of a built formula has the variables of its facts. -/
lemma Built.queue_eq {n : Nat} {W : Workspace} (h : W.Built n) :
    W.formula.queue = W.toCnf.facts := by
  induction h using Built.induct with
  | start A => rfl
  | @make A F c h ih =>
    simp only [toCnf, Formula.toCnf, Formula.clauses_alloc h.coherent.ref_lt] at ih ⊢
    exact ih
  | @add A F F' r h _ ha ih =>
    have hrefs := (Formula.attached_of_attach ha).refs_eq
    rw [Formula.queue_of_attach ha, ih]
    simp [toCnf, Formula.toCnf, Formula.clauses, Cnf.facts, hrefs]

/-- The clauses registered for a negation are those that have it, in the order of the formula. -/
lemma Built.withNegation_eq {n : Nat} {W : Workspace} (h : W.Built n) (v : Variable) :
    W.formula.withNegation v =
      W.formula.refs.filter fun r => (⟨v, true⟩ : Literal) ∈ W.arena.get r := by
  induction h using Built.induct with
  | start A => rfl
  | @make A F c h ih =>
    rw [ih]
    apply List.filter_congr
    intro r hr
    rw [Arena.get_alloc_of_lt (h.coherent.ref_lt r hr)]
  | @add A F F' r h _ ha ih =>
    have hadd := Formula.attached_of_attach ha
    simp only [Formula.withNegation] at ih
    simp only [Formula.withNegation, hadd.register_eq, hadd.refs_eq, List.filter_append,
      List.map_append, Formula.filter_entries, ih]
    by_cases hv : (⟨v, true⟩ : Literal) ∈ A.get r <;> simp [hv]

/-- The literals of the clauses registered for a negation are those of the clauses that have it. -/
lemma Built.map_withNegation {n : Nat} {W : Workspace} (h : W.Built n) (v : Variable) :
    (W.formula.withNegation v).map W.arena.get =
      W.toCnf.clauses.filter fun c => (⟨v, true⟩ : Literal) ∈ c := by
  rw [h.withNegation_eq, toCnf, Formula.toCnf, Formula.clauses, List.filter_map]
  rfl

/-! ### Adding new clauses -/

/-- The second formula is the first one with further clauses, which are new in the arena. -/
structure Extended (W : Workspace) (cs : List Clause) (W' : Workspace) : Prop where
  toCnf_eq : W'.toCnf = ⟨W.toCnf.numVariables, W.toCnf.clauses ++ cs⟩
  size_le : W.arena.slots.size ≤ W'.arena.slots.size
  get_eq : ∀ r < W.arena.slots.size, W'.arena.get r = W.arena.get r
  fresh : ∀ v r, (v, r) ∈ W'.formula.register →
    (v, r) ∈ W.formula.register ∨ W.arena.slots.size ≤ r

/-- Without further clauses a formula is its own extension. -/
lemma Extended.refl (W : Workspace) : W.Extended [] W where
  toCnf_eq := by simp [toCnf, Formula.toCnf]
  size_le := Nat.le_refl _
  get_eq := fun _ _ => rfl
  fresh := fun _ _ => .inl

/-- Further clauses may be added in several steps. -/
lemma Extended.trans {W W' W'' : Workspace} {cs ds : List Clause} (h : W.Extended cs W')
    (h' : W'.Extended ds W'') : W.Extended (cs ++ ds) W'' where
  toCnf_eq := by
    rw [h'.toCnf_eq, h.toCnf_eq, List.append_assoc]
  size_le := Nat.le_trans h.size_le h'.size_le
  get_eq := by
    intro r hr
    rw [h'.get_eq r (Nat.lt_of_lt_of_le hr h.size_le), h.get_eq r hr]
  fresh := by
    intro v r hv
    rcases h'.fresh v r hv with hv | hle
    · exact h.fresh v r hv
    · exact .inr (Nat.le_trans h.size_le hle)

/-- A new clause over the variables of a formula is not refused. -/
lemma Prepared.add_eq_ok {n : Nat} {vs : List Variable} {W : Workspace} {c : Clause}
    (h : Prepared n vs W) (hc : ∀ l ∈ c, l.var.index ≤ n) :
    ∃ W' r, W.add c = (W', .ok r) ∧ W.Extended [c] W' := by
  obtain ⟨A, F⟩ := W
  have hget : (A.alloc c).1.get (A.alloc c).2 = c := Arena.get_alloc_self A c
  have hle : ∀ l ∈ (A.alloc c).1.get (A.alloc c).2, l.var.index ≤ F.numVariables := by
    rw [hget, h.coherent.numVariables_eq]
    exact hc
  obtain ⟨F', hF'⟩ := Formula.attach_eq_ok hle
  have hadd := Formula.attached_of_attach hF'
  refine ⟨⟨(A.alloc c).1, F'⟩, (A.alloc c).2, ?_, ?_⟩
  · simp only [Workspace.add, hF']
    rfl
  · exact {
      toCnf_eq := by
        simp only [toCnf, Formula.toCnf, hadd.numVariables_eq, Cnf.mk.injEq, true_and]
        rw [← Formula.clauses_alloc h.coherent.ref_lt c]
        simp [Formula.clauses, hadd.refs_eq]
      size_le := by simp [Arena.alloc]
      get_eq := fun r hr => Arena.get_alloc_of_lt hr
      fresh := by
        intro v r hv
        rw [hadd.register_eq, List.mem_append, Formula.mem_entries] at hv
        rcases hv with hv | ⟨rfl, -⟩
        · exact .inl hv
        · exact .inr (Nat.le_refl _) }

/-- New clauses over the variables of a formula are not refused. -/
lemma Prepared.addAll_eq_ok {n : Nat} {vs : List Variable} {W : Workspace} {cs : List Clause}
    (h : Prepared n vs W) (hcs : ∀ c ∈ cs, ∀ l ∈ c, l.var.index ≤ n) :
    ∃ W', W.addAll cs = .ok W' ∧ W.Extended cs W' := by
  induction cs generalizing W with
  | nil => exact ⟨W, rfl, .refl W⟩
  | cons c rest ih =>
    obtain ⟨hc, hrest⟩ := List.forall_mem_cons.mp hcs
    obtain ⟨W₁, r, hadd, h₁⟩ := h.add_eq_ok hc
    obtain ⟨W₂, hok, h₂⟩ := ih (h.of_add hadd) hrest
    refine ⟨W₂, ?_, h₁.trans h₂⟩
    simp only [addAll, hadd, hok]

/-- New clauses are put behind those of the arena, and the formula refers to them there. -/
lemma placed_of_addAll {W W' : Workspace} {cs : List Clause} (h : W.addAll cs = .ok W') :
    W'.arena.slots = W.arena.slots ++ cs.toArray ∧
      W'.formula.refs = W.formula.refs ++ List.range' W.arena.slots.size cs.length := by
  induction cs generalizing W with
  | nil =>
    cases h
    simp
  | cons c rest ih =>
    simp only [addAll] at h
    split at h
    · next W₁ r h₁ =>
      obtain ⟨hA, hF⟩ := attach_of_add h₁
      have hslots : W₁.arena.slots = W.arena.slots.push c := by rw [hA, Arena.alloc]
      have hrefs := (Formula.attached_of_attach hF).refs_eq
      obtain ⟨hslots', hrefs'⟩ := ih h
      constructor
      · simp [hslots', hslots]
      · simp [hrefs', hrefs, hslots, List.range'_succ]
    · cases h

/-- A formula that keeps to its variables can be built. -/
lemma exists_built {f : Cnf} (hf : f.InRange) :
    ∃ W, ofClauses f.numVariables f.clauses = .ok W ∧ W.Built f.numVariables ∧ W.toCnf = f := by
  have hstart : Built f.numVariables ⟨Arena.empty, Formula.empty f.numVariables⟩ :=
    Prepared.start Arena.empty
  obtain ⟨W, hok, h⟩ := Prepared.addAll_eq_ok hstart hf
  refine ⟨W, ?_, Prepared.of_addAll hstart hok, ?_⟩
  · have hsize : ¬ (f.numVariables : Int) < 0 := by omega
    simpa [ofClauses, Formula.ofSize, hsize, bind, Except.bind] using hok
  · rw [h.toCnf_eq]
    rfl

/-- The clauses of a formula can be added anew, and the copy is what is built of them, with the queue of
the formula. -/
lemma Indexed.exists_copy {n : Nat} {W : Workspace} (h : W.Indexed n) :
    ∃ C : Workspace, addAll ⟨W.arena, Formula.empty n⟩ W.toCnf.clauses = .ok C ∧ C.Built n ∧
      Extended ⟨W.arena, Formula.empty n⟩ W.toCnf.clauses C ∧ C.toCnf = W.toCnf ∧
      W.copy = .ok ⟨C.arena, { C.formula with queue := W.formula.queue }⟩ := by
  have hn : W.formula.numVariables = n := h.numVariables_eq
  have hstart : Built n ⟨W.arena, Formula.empty n⟩ := Prepared.start W.arena
  have hle : ∀ c ∈ W.toCnf.clauses, ∀ l ∈ c, l.var.index ≤ n := by
    intro c hc
    obtain ⟨r, hr, rfl⟩ := List.mem_map.mp hc
    exact h.index_le r hr
  obtain ⟨C, hok, hC⟩ := Prepared.addAll_eq_ok hstart hle
  refine ⟨C, hok, Prepared.of_addAll hstart hok, hC, ?_, ?_⟩
  · rw [hC.toCnf_eq]
    simp [toCnf, Formula.toCnf, Formula.empty, Formula.clauses, hn]
  · have hok' : addAll ⟨W.arena, Formula.empty n⟩ (W.formula.clauses W.arena) = .ok C := hok
    simp [copy, hn, hok', bind, Except.bind, pure, Except.pure]

/-- A built formula has a copy, which is built of the same clauses anew: the clauses that were there
stay, and the register of the copy does not lead to them. -/
lemma Built.copy_eq_ok {n : Nat} {W : Workspace} (h : W.Built n) :
    ∃ C, W.copy = .ok C ∧ C.Built n ∧ C.toCnf = W.toCnf ∧
      (∀ r < W.arena.slots.size, C.arena.get r = W.arena.get r) ∧
      ∀ v r, (v, r) ∈ C.formula.register → W.arena.slots.size ≤ r := by
  obtain ⟨C, -, hbuilt, hC, hcnf, hok⟩ := h.coherent.exists_copy
  -- the queue that is copied is the one that the copied clauses give
  have hqueue : W.formula.queue = C.formula.queue := by
    rw [h.queue_eq, hbuilt.queue_eq, hcnf]
  rw [hqueue] at hok
  refine ⟨C, hok, hbuilt, hcnf, hC.get_eq, ?_⟩
  intro v r hv
  rcases hC.fresh v r hv with hv | hle
  · cases hv
  · exact hle

end Workspace

end Clausal
