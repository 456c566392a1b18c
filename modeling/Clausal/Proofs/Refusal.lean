import Clausal.Proofs.Dispatch
import Clausal.Proofs.Horn.Stray

/-!
# Refused clauses

A caller may go on with a formula after a clause was refused. The negated literals of the clause
before its first literal out of range are left in the register. Main statement: apart from
these entries the formula is the one that comes of the calls that were not refused, and it is solved
with the same results, unless the Horn method that is asked for by name ends beyond the assignment
(`callAll_accepted`).
-/

namespace Clausal

namespace Clause

/-- The literals of a clause before the first one whose variable is above `n`. -/
def inRangePrefix (n : Nat) (c : Clause) : List Literal :=
  c.literals.takeWhile (·.var.index ≤ n)

/-- A clause that formulas over `n` variables refuse leaves an entry for a variable: it negates the
variable before its first literal that is out of range. -/
def LeavesEntry (n : Nat) (c : Clause) (v : Variable) : Prop :=
  (∃ l ∈ c, n < l.var.index) ∧ ⟨v, true⟩ ∈ c.inRangePrefix n

/-- A reference to a clause that leaves an entry is one of the arena. -/
lemma LeavesEntry.ref_lt {n : Nat} {A : Arena} {r : ClauseRef} {v : Variable}
    (h : (A.get r).LeavesEntry n v) : r < A.slots.size := by
  obtain ⟨⟨l, hl, -⟩, -⟩ := h
  exact Arena.lt_of_mem_get hl

end Clause

namespace Formula

/-- Registering stops at the first literal that is out of range, and has then made the entries for
the literals before it. -/
lemma registerAll_eq_false {F F' : Formula} {r : ClauseRef} {ls : List Literal}
    (h : F.registerAll r ls = (F', false)) :
    (∃ l ∈ ls, F.numVariables < l.var.index) ∧
      F' = { F with
        register := F.register ++ entries r (ls.takeWhile (·.var.index ≤ F.numVariables)) } := by
  induction ls generalizing F with
  | nil => cases h
  | cons m rest ih =>
    simp only [registerAll] at h
    split at h
    · next hlt =>
      cases h
      refine ⟨⟨m, List.mem_cons_self, hlt⟩, ?_⟩
      rw [List.takeWhile_cons_of_neg (by simpa using hlt)]
      simp [entries]
    · next hle =>
      rw [List.takeWhile_cons_of_pos (by simpa using hle)]
      split at h
      · next hn =>
        obtain ⟨⟨l, hl, hlt⟩, rfl⟩ := ih h
        exact ⟨⟨l, List.mem_cons_of_mem m hl, hlt⟩, by simp [entries, hn]⟩
      · next hn =>
        obtain ⟨⟨l, hl, hlt⟩, rfl⟩ := ih h
        exact ⟨⟨l, List.mem_cons_of_mem m hl, hlt⟩, by simp [entries, hn]⟩

/-- A clause that is refused has a literal out of range, and leaves entries for the negations before
it. -/
lemma attach_eq_error {A : Arena} {F F' : Formula} {r : ClauseRef} {e : Error}
    (h : F.attach A r = (F', .error e)) :
    (∃ l ∈ A.get r, F.numVariables < l.var.index) ∧
      F' = { F with
        register := F.register ++ entries r ((A.get r).inRangePrefix F.numVariables) } := by
  unfold attach at h
  split at h
  · next G hG =>
    cases h
    exact registerAll_eq_false hG
  · split at h
    · cases h
    · cases h

end Formula

namespace Workspace

/-- What a caller does with a formula: making a clause of integers, or adding a clause that was
made. Integers are added by making a clause of them first. -/
inductive Call where
  | make (is : List Int)
  | add (r : ClauseRef)
  deriving DecidableEq

/-- Performs a call, which changes the formula even if it is refused. -/
def call (W : Workspace) : Call → Workspace × Except Error Unit
  | .make is =>
    if 0 ∈ is then (W, .error .zeroLiteral)
    else (⟨(W.arena.alloc (.ofInts is)).1, W.formula⟩, .ok ())
  | .add r =>
    if r < W.arena.slots.size then
      (⟨W.arena, (W.formula.attach W.arena r).1⟩, (W.formula.attach W.arena r).2)
    else (W, .error .pastEnd)

/-- Performs one call after the other, and goes on after those that are refused. -/
def callAll (W : Workspace) : List Call → Workspace
  | [] => W
  | c :: rest => callAll (W.call c).1 rest

/-- Those of some calls that are not refused when all of them are performed. -/
def accepted (W : Workspace) : List Call → List Call
  | [] => []
  | c :: rest =>
    match W.call c with
    | (W', .ok _) => c :: accepted W' rest
    | (W', .error _) => accepted W' rest

variable {n : Nat} {W W' : Workspace}

/-- The first formula is the second one, which was built over `n` variables, with the entries that
refused clauses have left in its register. -/
structure Leftover (n : Nat) (W W' : Workspace) : Prop where
  built : W'.Built n
  arena_eq : W'.arena = W.arena
  numVariables_eq : W'.formula.numVariables = W.formula.numVariables
  refs_eq : W'.formula.refs = W.formula.refs
  queue_eq : W'.formula.queue = W.formula.queue
  register_eq : W'.formula.register = W.formula.register.filter fun e => e.2 ∈ W.formula.refs
  leavesEntry : ∀ v r, (v, r) ∈ W.formula.register → r ∉ W.formula.refs →
    (W.arena.get r).LeavesEntry n v

/-- At the beginning no clause has left an entry. -/
lemma Leftover.start (n : Nat) (A : Arena) :
    Leftover n ⟨A, Formula.empty n⟩ ⟨A, Formula.empty n⟩ where
  built := .start A
  arena_eq := rfl
  numVariables_eq := rfl
  refs_eq := rfl
  queue_eq := rfl
  register_eq := rfl
  leavesEntry := by
    intro v r h
    cases h

/-- Both formulas are over `n` variables. -/
lemma Leftover.numVariables (h : Leftover n W W') : W.formula.numVariables = n :=
  h.numVariables_eq.symm.trans h.built.coherent.numVariables_eq

/-- The clauses of the formula keep to its variables, since those that do not were refused. -/
lemma Leftover.index_le (h : Leftover n W W') {r : ClauseRef} (hr : r ∈ W.formula.refs)
    {l : Literal} (hl : l ∈ W.arena.get r) : l.var.index ≤ n := by
  rw [← h.refs_eq] at hr
  rw [← h.arena_eq] at hl
  exact h.built.coherent.index_le r hr l hl

/-- A clause that is made is made for both formulas. -/
lemma Leftover.make (h : Leftover n W W') (c : Clause) :
    Leftover n ⟨(W.arena.alloc c).1, W.formula⟩ ⟨(W'.arena.alloc c).1, W'.formula⟩ where
  built := Prepared.make c h.built
  arena_eq := by rw [h.arena_eq]
  numVariables_eq := h.numVariables_eq
  refs_eq := h.refs_eq
  queue_eq := h.queue_eq
  register_eq := h.register_eq
  leavesEntry := by
    intro v r hv hr
    have hleft := h.leavesEntry v r hv hr
    rwa [Arena.get_alloc_of_lt hleft.ref_lt]

/-- A clause that is added to the formula is not refused by the one without the entries either. -/
lemma Leftover.add {F : Formula} {r : ClauseRef} (h : Leftover n W W')
    (hr : r < W.arena.slots.size) (ha : W.formula.attach W.arena r = (F, .ok ())) :
    ∃ G, W'.formula.attach W'.arena r = (G, .ok ()) ∧
      Leftover n ⟨W.arena, F⟩ ⟨W'.arena, G⟩ := by
  have hF := Formula.attached_of_attach ha
  have hle : ∀ l ∈ W'.arena.get r, l.var.index ≤ W'.formula.numVariables := by
    rw [h.arena_eq, h.numVariables_eq]
    exact hF.index_le
  obtain ⟨G, hG⟩ := Formula.attach_eq_ok hle
  have hG' := Formula.attached_of_attach hG
  refine ⟨G, hG, ?_⟩
  exact {
    built := Prepared.add h.built (h.arena_eq ▸ hr) hG
    arena_eq := h.arena_eq
    numVariables_eq := by rw [hG'.numVariables_eq, hF.numVariables_eq, h.numVariables_eq]
    refs_eq := by rw [hG'.refs_eq, hF.refs_eq, h.refs_eq]
    queue_eq := by
      rw [Formula.queue_of_attach hG, Formula.queue_of_attach ha, h.queue_eq, h.arena_eq]
    register_eq := by
      -- of the entries that were there, none leads to the added clause, unless it was there before
      have hold : ∀ e ∈ W.formula.register, e.2 ∈ W.formula.refs ++ [r] ↔ e.2 ∈ W.formula.refs := by
        rintro ⟨v, s⟩ hv
        constructor
        · intro hs
          by_contra hout
          rw [List.mem_append, List.mem_singleton] at hs
          obtain rfl := hs.resolve_left hout
          obtain ⟨⟨l, hl, hlt⟩, -⟩ := h.leavesEntry v s hv hout
          have hle := hF.index_le l hl
          rw [h.numVariables] at hle
          exact absurd hlt (Nat.not_lt.mpr hle)
        · exact List.mem_append_left [r]
      have hnew : ∀ e ∈ Formula.entries r (W.arena.get r).literals,
          decide (e.2 ∈ W.formula.refs ++ [r]) = true := by
        rintro ⟨v, s⟩ hv
        obtain ⟨rfl, -⟩ := Formula.mem_entries.mp hv
        simp
      rw [hG'.register_eq, hF.register_eq, hF.refs_eq, List.filter_append, h.register_eq,
        h.arena_eq, List.filter_eq_self.mpr hnew]
      congr 1
      apply List.filter_congr
      intro e he
      simp only [hold e he]
    leavesEntry := by
      intro v s hv hs
      rw [hF.register_eq, List.mem_append, Formula.mem_entries] at hv
      rw [hF.refs_eq, List.mem_append, List.mem_singleton, not_or] at hs
      rcases hv with hv | ⟨rfl, -⟩
      · exact h.leavesEntry v s hv hs.1
      · exact absurd rfl hs.2 }

/-- A clause that is refused leaves nothing but entries. -/
lemma Leftover.refuse {F : Formula} {r : ClauseRef} {e : Error} (h : Leftover n W W')
    (ha : W.formula.attach W.arena r = (F, .error e)) : Leftover n ⟨W.arena, F⟩ W' := by
  obtain ⟨⟨l, hl, hlt⟩, rfl⟩ := Formula.attach_eq_error ha
  rw [h.numVariables] at hlt
  have hr : r ∉ W.formula.refs := fun hr => absurd hlt (Nat.not_lt.mpr (h.index_le hr hl))
  exact {
    built := h.built
    arena_eq := h.arena_eq
    numVariables_eq := h.numVariables_eq
    refs_eq := h.refs_eq
    queue_eq := h.queue_eq
    register_eq := by
      have hnew : ∀ e ∈ Formula.entries r ((W.arena.get r).inRangePrefix W.formula.numVariables),
          ¬ decide (e.2 ∈ W.formula.refs) = true := by
        rintro ⟨v, s⟩ hv
        obtain ⟨rfl, -⟩ := Formula.mem_entries.mp hv
        simpa using hr
      rw [List.filter_append, List.filter_eq_nil_iff.mpr hnew, List.append_nil]
      exact h.register_eq
    leavesEntry := by
      intro v s hv hs
      rw [List.mem_append, Formula.mem_entries] at hv
      rcases hv with hv | ⟨rfl, hv⟩
      · exact h.leavesEntry v s hv hs
      · rw [h.numVariables] at hv
        exact ⟨⟨l, hl, hlt⟩, hv⟩ }

/-! ### Sequences of calls -/

/-- A call that is not refused does the same to both formulas, and one that is refused is as if it
had not been made. -/
lemma Leftover.call (h : Leftover n W W') (c : Call) :
    (∃ W₁ W₁', W.call c = (W₁, .ok ()) ∧ W'.call c = (W₁', .ok ()) ∧ Leftover n W₁ W₁') ∨
    ∃ W₁ e, W.call c = (W₁, .error e) ∧ Leftover n W₁ W' := by
  cases c with
  | make is =>
    by_cases hz : 0 ∈ is
    · exact .inr ⟨W, .zeroLiteral, by simp [Workspace.call, hz], h⟩
    · refine .inl ⟨_, _, ?_, ?_, h.make (.ofInts is)⟩
      · simp [Workspace.call, hz]
      · simp [Workspace.call, hz]
  | add r =>
    by_cases hr : r < W.arena.slots.size
    · cases ha : W.formula.attach W.arena r with
      | mk F result =>
        cases result with
        | ok u =>
          obtain ⟨G, hG, hleft⟩ := h.add hr ha
          refine .inl ⟨_, _, ?_, ?_, hleft⟩
          · simp [Workspace.call, hr, ha]
          · simp [Workspace.call, h.arena_eq ▸ hr, hG]
        | error e =>
          refine .inr ⟨_, e, ?_, h.refuse ha⟩
          simp [Workspace.call, hr, ha]
    · exact .inr ⟨W, .pastEnd, by simp [Workspace.call, hr], h⟩

/-- None of the calls that were not refused is refused when the others are left out, and what the
others leave of themselves are entries of the register. -/
lemma Leftover.callAll (h : Leftover n W W') (calls : List Call) :
    Leftover n (W.callAll calls) (W'.callAll (W.accepted calls)) ∧
      W'.accepted (W.accepted calls) = W.accepted calls := by
  induction calls generalizing W W' with
  | nil => exact ⟨h, rfl⟩
  | cons c rest ih =>
    rcases h.call c with ⟨W₁, W₁', hok, hok', h₁⟩ | ⟨W₁, e, herr, h₁⟩
    · obtain ⟨hleft, haccepted⟩ := ih h₁
      simp only [Workspace.callAll, accepted, hok, hok', haccepted]
      exact ⟨hleft, trivial⟩
    · simp only [Workspace.callAll, accepted, herr]
      exact ih h₁

/-- A call makes no entries but those of the clause that was to be added. -/
lemma mem_register_call {c : Call} {v : Variable} {r : ClauseRef}
    (h : (v, r) ∈ (W.call c).1.formula.register) : (v, r) ∈ W.formula.register ∨ c = .add r := by
  cases c with
  | make is =>
    by_cases hz : 0 ∈ is
    · exact .inl (by simpa [Workspace.call, hz] using h)
    · exact .inl (by simpa [Workspace.call, hz] using h)
  | add s =>
    by_cases hs : s < W.arena.slots.size
    · simp only [Workspace.call, if_pos hs] at h
      cases ha : W.formula.attach W.arena s with
      | mk F result =>
        -- whether the clause is refused or not, the new entries lead to it
        have hentries : ∃ ls, F.register = W.formula.register ++ Formula.entries s ls := by
          cases result with
          | ok u => exact ⟨_, (Formula.attached_of_attach ha).register_eq⟩
          | error e =>
            obtain ⟨-, rfl⟩ := Formula.attach_eq_error ha
            exact ⟨_, rfl⟩
        obtain ⟨ls, hls⟩ := hentries
        rw [ha, hls, List.mem_append, Formula.mem_entries] at h
        rcases h with h | ⟨rfl, -⟩
        · exact .inl h
        · exact .inr rfl
    · exact .inl (by simpa [Workspace.call, hs] using h)

/-- Only for a clause that was to be added an entry comes to the register. -/
lemma mem_register_callAll {calls : List Call} {v : Variable} {r : ClauseRef}
    (h : (v, r) ∈ (W.callAll calls).formula.register) :
    (v, r) ∈ W.formula.register ∨ .add r ∈ calls := by
  induction calls generalizing W with
  | nil => exact .inl h
  | cons c rest ih =>
    rcases ih h with hv | hr
    · rcases mem_register_call hv with hv | rfl
      · exact .inl hv
      · exact .inr List.mem_cons_self
    · exact .inr (List.mem_cons_of_mem _ hr)

/-! ### What the entries change -/

/-- The entries change neither the number of variables nor the clauses. -/
lemma Leftover.toCnf_eq (h : Leftover n W W') : W.toCnf = W'.toCnf := by
  simp only [toCnf, Formula.toCnf, Formula.clauses, h.numVariables_eq, h.refs_eq, h.arena_eq]

/-- A copy is made of the clauses, so the entries do not come to it. -/
lemma Leftover.copy_eq (h : Leftover n W W') : W.copy = W'.copy := by
  simp only [copy, Formula.clauses, h.numVariables_eq, h.refs_eq, h.queue_eq, h.arena_eq]

/-- A formula without entries of refused clauses is the one of the calls that were not refused. -/
lemma Leftover.eq (h : Leftover n W W')
    (hnone : ∀ v r, (v, r) ∈ W.formula.register → r ∈ W.formula.refs) : W = W' := by
  have hregister : W'.formula.register = W.formula.register := by
    rw [h.register_eq, List.filter_eq_self]
    rintro ⟨v, r⟩ hv
    simpa using hnone v r hv
  obtain ⟨A, ⟨k, refs, queue, register⟩⟩ := W
  obtain ⟨A', ⟨k', refs', queue', register'⟩⟩ := W'
  simp only [Workspace.mk.injEq, Formula.mk.injEq]
  exact ⟨h.arena_eq.symm, h.numVariables_eq.symm, h.refs_eq.symm, h.queue_eq.symm, hregister.symm⟩

/-- The entries that refused clauses have left are stray, since these have a variable out of
range. -/
lemma Leftover.stray (h : Leftover n W W') : Solver.Horn.Stray n W W' where
  numVariables_eq := h.numVariables
  numVariables_eq' := h.numVariables_eq.trans h.numVariables
  refs_eq := h.refs_eq
  get_eq := by
    intro r _
    rw [h.arena_eq]
  index_le := fun r hr l hl => h.index_le hr hl
  queue_eq := by
    have hle := h.built.coherent.queue_index_le
    rw [h.queue_eq] at hle ⊢
    rw [eq_comm, List.filter_eq_self]
    intro v hv
    exact decide_eq_true (hle v hv)
  register_eq := h.register_eq
  exists_foreign := fun v r hv hr => (h.leavesEntry v r hv hr).1

/-- Only the Horn method sees the entries. -/
lemma Leftover.apply (h : Leftover n W W') (m : Method) :
    (Solver.apply W m).2.result = (Solver.apply W' m).2.result ∨
      m = .horn ∧ ∃ v : Variable, n < v.index ∧
        (Solver.apply W m).2.result = .error (.beyondAssignment v.place n) := by
  cases m with
  | general => exact .inl (by simp only [Solver.apply, h.toCnf_eq])
  | twoSat => exact .inl (by simp only [Solver.apply, h.toCnf_eq])
  | horn =>
    rcases h.stray.solve with heq | hbeyond
    · exact .inl heq
    · exact .inr ⟨rfl, hbeyond⟩

/-- The check of the shape does not see the entries. -/
lemma Leftover.applyIfSuited (h : Leftover n W W') (m : Method) :
    (Solver.applyIfSuited W m).2.result = (Solver.applyIfSuited W' m).2.result ∨
      m = .horn ∧ ∃ v : Variable, n < v.index ∧
        (Solver.applyIfSuited W m).2.result = .error (.beyondAssignment v.place n) := by
  simp only [Solver.applyIfSuited, h.toCnf_eq]
  split
  · exact h.apply m
  · exact .inl rfl

/-- The choice by shape solves a copy by the Horn method, and a copy has no entries left over. -/
lemma Leftover.run_auto (h : Leftover n W W') :
    (Solver.run W .auto).2.result = (Solver.run W' .auto).2.result := by
  simp only [Solver.run, h.toCnf_eq, h.copy_eq]
  cases Solver.select W'.toCnf with
  | general => exact (h.applyIfSuited .general).resolve_right (by simp)
  | twoSat => exact (h.applyIfSuited .twoSat).resolve_right (by simp)
  | horn =>
    cases W'.copy with
    | error e => rfl
    | ok C => rfl

/-- Solving by name answers the same with the entries and without them, except that the Horn method
may end beyond the assignment where it is asked for. -/
lemma Leftover.solve (h : Leftover n W W') (name : String) :
    (Solver.solve W name).2.result = (Solver.solve W' name).2.result ∨
      name = "horn_sat" ∧ ∃ v : Variable, n < v.index ∧
        (Solver.solve W name).2.result = .error (.beyondAssignment v.place n) := by
  unfold Solver.solve
  split
  · exact .inl rfl
  · next a ha =>
    obtain rfl := Algorithm.eq_name_of_ofName? ha
    cases a with
    | auto => exact .inl h.run_auto
    | fixed m =>
      rcases h.applyIfSuited m with heq | ⟨rfl, hbeyond⟩
      · exact .inl heq
      · exact .inr ⟨rfl, hbeyond⟩

/-- After any calls, of which some are refused, the formula has the same clauses and the same queue
as after those that were not refused, which are not refused without the others either. Its register
has in addition the entries that refused clauses have left, and it is the same formula if none has
left any. Every method answers the same, except that the Horn method may end beyond the assignment
where it is asked for by name. -/
theorem callAll_accepted (n : Nat) (A : Arena) (calls : List Call) :
    let start : Workspace := ⟨A, Formula.empty n⟩
    let W := start.callAll calls
    let W' := start.callAll (start.accepted calls)
    start.accepted (start.accepted calls) = start.accepted calls ∧
    (W'.Built n ∧ W.arena = W'.arena ∧ W.toCnf = W'.toCnf ∧
      W.formula.refs = W'.formula.refs ∧ W.formula.queue = W'.formula.queue) ∧
    (∀ v, W'.formula.withNegation v =
      (W.formula.withNegation v).filter (· ∈ W.formula.refs)) ∧
    (∀ v, ∀ r ∈ W.formula.withNegation v, r ∉ W.formula.refs →
      .add r ∈ calls ∧ (W.arena.get r).LeavesEntry n v) ∧
    ((∀ r v, .add r ∈ calls → ¬ (W.arena.get r).LeavesEntry n v) → W = W') ∧
    (∀ m, (Solver.apply W m).2.result = (Solver.apply W' m).2.result ∨
      m = .horn ∧ ∃ v : Variable, n < v.index ∧
        (Solver.apply W m).2.result = .error (.beyondAssignment v.place n)) ∧
    ∀ name, (Solver.solve W name).2.result = (Solver.solve W' name).2.result ∨
      name = "horn_sat" ∧ ∃ v : Variable, n < v.index ∧
        (Solver.solve W name).2.result = .error (.beyondAssignment v.place n) := by
  intro start W W'
  obtain ⟨h, haccepted⟩ : Leftover n W W' ∧ _ := (Leftover.start n A).callAll calls
  have hadd : ∀ v r, (v, r) ∈ W.formula.register → .add r ∈ calls := by
    intro v r hv
    rcases mem_register_callAll hv with hnone | hr
    · cases hnone
    · exact hr
  refine ⟨haccepted, ⟨h.built, h.arena_eq.symm, h.toCnf_eq, h.refs_eq.symm, h.queue_eq.symm⟩,
    h.stray.withNegation_eq, ?_, ?_, h.apply, h.solve⟩
  · intro v r hr hout
    have hv := Formula.mem_withNegation.mp hr
    exact ⟨hadd v r hv, h.leavesEntry v r hv hout⟩
  · intro hnone
    apply h.eq
    intro v r hv
    by_contra hout
    exact hnone r v (hadd v r hv) (h.leavesEntry v r hv hout)

/-- The formula without clauses over two variables. -/
def overTwo : Workspace := ⟨Arena.empty, Formula.empty 2⟩

/-- Over two variables the first clause is refused for its second literal, and the second clause is
a fact about the variable that the first one negates. -/
def refusedThenFact : List Call := [.make [-1, 3], .add 0, .make [1], .add 1]

/-- The two clauses, and the formula of the second one whose register leads to the first one. -/
def factWithEntry : Workspace where
  arena := ⟨#[.ofInts [-1, 3], .ofInts [1]]⟩
  formula := {
    numVariables := 2
    refs := [1]
    queue := [.ofPlace 0]
    register := [(.ofPlace 0, 0)] }

/-- The same clauses and formula without an entry for the first clause. -/
def factAlone : Workspace where
  arena := factWithEntry.arena
  formula := { factWithEntry.formula with register := [] }

/-- The formula after the fact was struck out of the first clause. -/
def struckFact : Workspace where
  arena := ⟨#[.ofInts [3], .ofInts [1]]⟩
  formula := { factWithEntry.formula with queue := [.ofPlace 2] }

/-- Propagation takes what is left of the refused clause for a fact, which is out of range. -/
lemma propagate_factWithEntry : Solver.Horn.propagate factWithEntry (Assignment.allFalse 2) 0 =
    (struckFact.withQueue [], .error (.outOfBounds 2 2)) := by
  have hbeyond : Solver.Horn.propagate struckFact [true, false] 1 =
      (struckFact.withQueue [], .error (.outOfBounds 2 2)) := by
    rw [Solver.Horn.propagate]
    rfl
  rw [Solver.Horn.propagate]
  exact hbeyond

/-- Without the entry propagation makes the fact true and strikes out nothing. -/
lemma propagate_factAlone : Solver.Horn.propagate factAlone (Assignment.allFalse 2) 0 =
    (factAlone.withQueue [], .ok ([true, false], 0)) := by
  have hdone : Solver.Horn.propagate (factAlone.withQueue []) [true, false] 0 =
      (factAlone.withQueue [], .ok ([true, false], 0)) := by
    rw [Solver.Horn.propagate]
    rfl
  rw [Solver.Horn.propagate]
  exact hdone

/-- In the example the refused clause stays registered. Propagation of the fact strikes its negation
out of that clause, takes what is left of it for another fact, and ends beyond the assignment; the
formula without the refused call has the fact as its only clause and is solved. -/
theorem callAll_refusedThenFact :
    overTwo.accepted refusedThenFact = [.make [-1, 3], .make [1], .add 1] ∧
    (overTwo.callAll refusedThenFact).formula.withNegation (.ofPlace 0) = [0] ∧
    (overTwo.callAll (overTwo.accepted refusedThenFact)).formula.withNegation (.ofPlace 0) = [] ∧
    (Solver.Horn.solve (overTwo.callAll refusedThenFact)).2.result = .error (.outOfBounds 2 2) ∧
    (Solver.Horn.solve (overTwo.callAll (overTwo.accepted refusedThenFact))).2.result =
      .ok [true, false] := by
  have hcalls : overTwo.callAll refusedThenFact = factWithEntry := by decide
  have haccepted : overTwo.callAll (overTwo.accepted refusedThenFact) = factAlone := by decide
  have hfact : (factWithEntry.formula.clauses factWithEntry.arena).any (·.literals.isEmpty) =
      false := rfl
  have halone : (factAlone.formula.clauses factAlone.arena).any (·.literals.isEmpty) = false := rfl
  have hsize : factWithEntry.formula.numVariables = 2 := rfl
  have hsize' : factAlone.formula.numVariables = 2 := rfl
  rw [hcalls, haccepted]
  refine ⟨by decide, by decide, by decide, ?_, ?_⟩
  · simp [Solver.Horn.solve, hfact, hsize, propagate_factWithEntry, Report.silent]
  · simp [Solver.Horn.solve, halone, hsize', propagate_factAlone]

/-- A clause whose first literal is out of range and a clause with a zero leave nothing. -/
theorem callAll_accepted_outOfRangeFirst :
    overTwo.callAll [.make [3, -1], .add 0, .make [-1, 0], .make [-1, 2], .add 1] =
      overTwo.callAll [.make [3, -1], .make [-1, 2], .add 1] := by
  obtain ⟨-, -, -, -, hclean, -⟩ := callAll_accepted 2 Arena.empty
    [.make [3, -1], .add 0, .make [-1, 0], .make [-1, 2], .add 1]
  apply hclean
  intro r v hr
  have hr : r = 0 ∨ r = 1 := by simpa using hr
  rcases hr with rfl | rfl
  · rintro ⟨-, hv⟩
    cases hv
  · rintro ⟨⟨l, hl, hlt⟩, -⟩
    have hle : ∀ l ∈ [(⟨.ofPlace 0, true⟩ : Literal), ⟨.ofPlace 1, false⟩], l.var.index ≤ 2 := by
      decide
    exact absurd hlt (Nat.not_lt.mpr (hle l hl))

end Workspace

end Clausal
