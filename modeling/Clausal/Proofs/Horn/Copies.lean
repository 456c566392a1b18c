import Clausal.Proofs.Separation

/-!
# Copies of used formulas

Callers go on with a formula after they have solved it. Its register then leads to clauses that do not
have the negation any more, its clauses may be there several times, and its facts need not be on the
queue. Main statement: a copy made at any time has the clauses and the queue that the formula has at
that time, a register of its own that fits them, and no clause in common with the formula, so that
neither shows what is done with the other, and the Horn method comes to the same result for both
(`Used.copy_faithful`).
-/

namespace Clausal

namespace Solver.Horn

open Workspace

variable {n : Nat} {W : Workspace}

/-! ### Formulas that stay coherent -/

/-- Striking out keeps a formula coherent, also if it comes to a contradiction. -/
lemma coherent_strike {v : Variable} {rs : List ClauseRef} (removed : Nat) (h : W.Coherent n)
    (hrs : ∀ r ∈ rs, r ∈ W.formula.refs) : (strike v W removed rs).1.Coherent n := by
  have hlt : ∀ r ∈ rs, r < W.arena.slots.size := fun r hr => h.ref_lt r (hrs r hr)
  rcases strike_spec hlt with ⟨W', k, hok, hs⟩ | ⟨W', rs₁, r, rs₂, herr, rfl, hs, -⟩
  · rw [hok]
    exact hs.coherent h hrs
  · rw [herr]
    exact hs.coherent h fun s hs' => hrs s (List.mem_append_left _ hs')

/-- Striking out of the clauses registered for a variable keeps a formula coherent. -/
lemma coherent_strike_withNegation (v : Variable) (removed : Nat) (h : W.Coherent n) :
    (strike v W removed (W.formula.withNegation v)).1.Coherent n := by
  apply coherent_strike removed h
  intro r hr
  exact h.ref_of_registered v r (Formula.mem_withNegation.mp hr)

/-- Propagation keeps a formula coherent, also if it comes to a contradiction. -/
lemma coherent_propagate (a : Assignment) (removed : Nat) (h : W.Coherent n) :
    (propagate W a removed).1.Coherent n := by
  fun_induction propagate W a removed with
  | case1 W a removed hq => exact h
  | case2 W a removed v rest hq W₁ hnone => exact h.pop hq
  | case3 W a removed v rest hq W₁ htrue ih => exact ih (h.pop hq)
  | case4 W a removed v rest hq W₁ hfalse W₂ e hs =>
    have hstrike := coherent_strike_withNegation v removed (h.pop hq)
    rwa [show W.withQueue rest = W₁ from rfl, hs] at hstrike
  | case5 W a removed v rest hq W₁ hfalse W₂ k hs ih =>
    have hstrike := coherent_strike_withNegation v removed (h.pop hq)
    rw [show W.withQueue rest = W₁ from rfl, hs] at hstrike
    exact ih hstrike

/-- The Horn method leaves a coherent formula, whatever it finds. -/
lemma coherent_solve (h : W.Coherent n) : (solve W).1.Coherent n := by
  have hp := coherent_propagate (Assignment.allFalse W.formula.numVariables) 0 h
  unfold solve
  split
  · exact h
  · split
    · next he => rwa [he] at hp
    · next he => rwa [he] at hp

end Solver.Horn

namespace Workspace

/-- A formula over `n` variables that its callers have used: they started with no clauses, made
clauses, added some of them without being refused, put variables of the formula on the queue and took
variables off it, and solved it, whatever came of this. -/
inductive Used (n : Nat) : Workspace → Prop where
  | start (A) :
    Used n ⟨A, Formula.empty n⟩
  | make {A F} (c) :
    Used n ⟨A, F⟩ →
    Used n ⟨(A.alloc c).1, F⟩
  | add {A F F' r} :
    Used n ⟨A, F⟩ →
    r < A.slots.size →
    F.attach A r = (F', .ok ()) →
    Used n ⟨A, F'⟩
  | push {A F v} :
    Used n ⟨A, F⟩ →
    v.index ≤ n →
    Used n ⟨A, F.enqueue v⟩
  | pop {A F F' v} :
    Used n ⟨A, F⟩ →
    F.dequeue = .ok (v, F') →
    Used n ⟨A, F'⟩
  | solve {W} :
    Used n W →
    Used n (Solver.Horn.solve W).1

variable {n : Nat} {W C : Workspace}

/-- Whatever its callers did with it, a formula stays coherent. -/
lemma Used.coherent (h : W.Used n) : W.Coherent n := by
  induction h with
  | start A => exact .start n A
  | make c _ ih => exact ih.make c
  | add _ hr ha ih => exact ih.add hr (Formula.attached_of_attach ha)
  | push _ hv ih => exact ih.push hv
  | pop _ hd ih =>
    unfold Formula.dequeue at hd
    split at hd
    · cases hd
    · next hq =>
      cases hd
      exact ih.pop hq
  | solve _ ih => exact Solver.Horn.coherent_solve ih

/-- A prepared formula is one that its callers have used. -/
lemma Prepared.used {vs : List Variable} (h : Prepared n vs W) : W.Used n := by
  induction h with
  | start A => exact .start A
  | make c _ ih => exact ih.make c
  | add _ hr ha ih => exact ih.add hr ha
  | push _ hv ih => exact ih.push hv

/-! ### The copy -/

/-- The second formula is a copy of the first one: its clauses are new ones with the same literals, in
the same order, and a clause is registered for a negation exactly if it has it. -/
structure IsCopy (n : Nat) (W C : Workspace) : Prop where
  coherent : C.Coherent n
  toCnf_eq : C.toCnf = W.toCnf
  queue_eq : C.formula.queue = W.formula.queue
  refs_eq : C.formula.refs = List.range' W.arena.slots.size W.formula.refs.length
  withNegation_eq : ∀ v, C.formula.withNegation v =
    C.formula.refs.filter fun r => (⟨v, true⟩ : Literal) ∈ C.arena.get r
  size_le : W.arena.slots.size ≤ C.arena.slots.size
  get_eq : ∀ r < W.arena.slots.size, C.arena.get r = W.arena.get r

/-- Every coherent formula can be copied. -/
lemma Coherent.exists_isCopy (h : W.Coherent n) : ∃ C, W.copy = .ok C ∧ IsCopy n W C := by
  obtain ⟨C, hadd, hbuilt, hC, hcnf, hok⟩ := h.exists_copy
  refine ⟨_, hok, ?_⟩
  have hrefs := (placed_of_addAll hadd).2
  exact {
    coherent := {
      toIndexed := hbuilt.coherent.requeue h.nodup_queue
      queue_index_le := h.queue_index_le }
    toCnf_eq := hcnf
    queue_eq := rfl
    refs_eq := by
      rw [hrefs]
      simp [Formula.empty, toCnf, Formula.toCnf, Formula.clauses]
    withNegation_eq := hbuilt.withNegation_eq
    size_le := hC.size_le
    get_eq := hC.get_eq }

/-- Of two lists with the same images, the second can be filtered by the images of the first. -/
lemma filter_eq_map_zip {α β γ : Type} {f : α → γ} {g : β → γ} (p : γ → Bool) {l : List α}
    {l' : List β} (h : l'.map g = l.map f) :
    l'.filter (fun b => p (g b)) = ((l.zip l').filter fun q => p (f q.1)).map (·.2) := by
  induction l generalizing l' with
  | nil =>
    obtain rfl : l' = [] := List.map_eq_nil_iff.mp h
    rfl
  | cons a l ih =>
    obtain ⟨b, l'', rfl, hb, hl⟩ := List.map_eq_cons_iff.mp h
    rw [List.zip_cons_cons, List.filter_cons, List.filter_cons, hb, ih hl]
    split <;> rfl

/-- The copies registered for a negation are those of the clauses that have it at present. -/
lemma IsCopy.withNegation_eq_zip (h : IsCopy n W C) (v : Variable) :
    C.formula.withNegation v =
      ((W.formula.refs.zip C.formula.refs).filter fun p =>
        (⟨v, true⟩ : Literal) ∈ W.arena.get p.1).map (·.2) := by
  have hclauses : C.formula.refs.map C.arena.get = W.formula.refs.map W.arena.get :=
    congrArg Cnf.clauses h.toCnf_eq
  rw [h.withNegation_eq]
  exact filter_eq_map_zip (fun c => (⟨v, true⟩ : Literal) ∈ c) hclauses

/-- A copy refers to new clauses only. -/
lemma IsCopy.le_of_refersTo (h : IsCopy n W C) {r : ClauseRef} (hr : C.formula.RefersTo r) :
    W.arena.slots.size ≤ r := by
  have hmem : r ∈ C.formula.refs := by
    rcases hr with hr | ⟨v, hv⟩
    · exact hr
    · exact h.coherent.ref_of_registered v r hv
  rw [h.refs_eq, List.mem_range'_1] at hmem
  exact hmem.1

/-- A formula refers only to clauses that there are. -/
lemma Indexed.lt_of_refersTo (h : W.Indexed n) {r : ClauseRef} (hr : W.formula.RefersTo r) :
    r < W.arena.slots.size := by
  rcases hr with hr | ⟨v, hv⟩
  · exact h.ref_lt r hr
  · exact h.ref_lt r (h.ref_of_registered v r hv)

/-- A copy has no clause in common with the formula. -/
lemma IsCopy.separate (h : IsCopy n W C) (hW : W.Coherent n) :
    C.Separate W.formula.RefersTo where
  lt := fun _ => h.coherent.lt_of_refersTo
  foreign_lt := fun r hr => Nat.lt_of_lt_of_le (hW.lt_of_refersTo hr) h.size_le
  disjoint := by
    intro r hr hW'
    exact Nat.not_lt.mpr (h.le_of_refersTo hr) (hW.lt_of_refersTo hW')

/-- Copying leaves the formula itself as it was. -/
lemma IsCopy.coherent_left (h : IsCopy n W C) (hW : W.Coherent n) :
    Coherent n ⟨C.arena, W.formula⟩ where
  toIndexed := hW.toIndexed.continue {
    size_le := h.size_le
    mem_of_mem := fun r hr _ hl => h.get_eq r hr ▸ hl }
  queue_index_le := hW.queue_index_le

/-- Copying leaves the clauses of the formula itself as they were. -/
lemma IsCopy.toCnf_left (h : IsCopy n W C) (hW : W.Coherent n) :
    toCnf ⟨C.arena, W.formula⟩ = W.toCnf := by
  simp only [toCnf, Formula.toCnf, Formula.clauses, Cnf.mk.injEq, true_and]
  apply List.map_congr_left
  intro r hr
  exact h.get_eq r (hW.ref_lt r hr)

/-- A formula that was used can be copied at any time. The copy has the same number of variables, the
same clauses in the same order and the same queue. Its clauses are new ones, one for each place of the
formula, and those registered for a negation are, in their order, the copies of the clauses that have
the negation at present. Whatever is done with the formula and the copy afterwards, as long as neither
is handed a clause of the other, they have no clause in common, and what is done with one of them
leaves the clauses of the other as they are. The Horn method gives the same result for both, which is
an assignment or the error that there is none. -/
theorem Used.copy_faithful (h : W.Used n) :
    ∃ C, W.copy = .ok C ∧
      (C.formula.numVariables = W.formula.numVariables ∧
        C.formula.clauses C.arena = W.formula.clauses W.arena ∧
        C.formula.queue = W.formula.queue) ∧
      (C.formula.refs.length = W.formula.refs.length ∧ C.formula.refs.Nodup ∧
        (∀ r, C.formula.RefersTo r → W.arena.slots.size ≤ r) ∧
        ∀ v, C.formula.withNegation v =
          ((W.formula.refs.zip C.formula.refs).filter fun p =>
            (⟨v, true⟩ : Literal) ∈ W.arena.get p.1).map (·.2)) ∧
      (∀ r, W.formula.RefersTo r → C.arena.get r = W.arena.get r) ∧
      (∀ s, Relation.ReflTransGen Pair.Step ⟨C.arena, W.formula, C.formula⟩ s →
        (∀ r, s.left.RefersTo r → ¬ s.right.RefersTo r) ∧
        (∀ V, Relation.ReflTransGen (Step s.left.RefersTo) ⟨s.arena, s.right⟩ V →
          ∀ r, s.left.RefersTo r → V.arena.get r = s.arena.get r) ∧
        ∀ V, Relation.ReflTransGen (Step s.right.RefersTo) ⟨s.arena, s.left⟩ V →
          ∀ r, s.right.RefersTo r → V.arena.get r = s.arena.get r) ∧
      (Solver.Horn.solve C).2.result = (Solver.Horn.solve W).2.result ∧
      (Solver.Horn.solve ⟨C.arena, W.formula⟩).2.result = (Solver.Horn.solve W).2.result ∧
      ((∃ a, (Solver.Horn.solve W).2.result = .ok a ∧ a.length = n) ∨
        (Solver.Horn.solve W).2.result = .error (.unsatisfiable .horn)) := by
  have hW := h.coherent
  obtain ⟨C, hok, hC⟩ := hW.exists_isCopy
  have hseparate : Separate C.formula.RefersTo ⟨C.arena, W.formula⟩ := (hC.separate hW).symm
  refine ⟨C, hok, ⟨?_, ?_, hC.queue_eq⟩, ⟨?_, ?_, ?_, hC.withNegation_eq_zip⟩, ?_, ?_, ?_, ?_, ?_⟩
  · exact congrArg Cnf.numVariables hC.toCnf_eq
  · exact congrArg Cnf.clauses hC.toCnf_eq
  · rw [hC.refs_eq, List.length_range']
  · rw [hC.refs_eq]
    exact List.nodup_range'
  · intro r hr
    exact hC.le_of_refersTo hr
  · intro r hr
    exact hC.get_eq r (hW.lt_of_refersTo hr)
  · intro s hs
    have hs' := Pair.separate_of_steps hseparate hs
    exact ⟨hs'.disjoint, fun V hV => (hs'.symm.steps hV).2, fun V hV => (hs'.steps hV).2⟩
  · apply Solver.Horn.result_solve_eq hW hC.coherent hC.toCnf_eq
    intro v
    rw [hC.queue_eq]
  · exact Solver.Horn.result_solve_eq hW (hC.coherent_left hW) (hC.toCnf_left hW) fun _ => Iff.rfl
  · rcases Solver.Horn.solve_closes hW with ⟨a, ha, hend, -⟩ | ⟨herr, -⟩
    · exact .inl ⟨a, ha, hend.length_eq⟩
    · exact .inr herr

/-- The formula with two heads after it was solved, where the second variable was then put on the queue.
The implication, which is added twice, is registered for a negation that it does not have any more. -/
def askedHeads : Workspace where
  arena := Solver.Horn.struckHeads.arena
  formula := Solver.Horn.struckHeads.formula.enqueue (.ofPlace 1)

/-- The example was solved and asked for a variable by its callers. -/
lemma used_askedHeads : askedHeads.Used 3 := by
  have hstruck : (Solver.Horn.solve Solver.Horn.twoHeads).1 = Solver.Horn.struckHeads := by
    rw [Solver.Horn.solve_twoHeads]
  have hused : Solver.Horn.struckHeads.Used 3 := hstruck ▸ Solver.Horn.built_twoHeads.used.solve
  exact hused.push (by decide)

/-- In the example the implication is registered in the formula, but its copies are not registered in
the copy, and changing a copy of it in place leaves the formula as it is. -/
theorem Used.copy_faithful_askedHeads :
    askedHeads.Used 3 ∧ askedHeads.formula.withNegation (.ofPlace 0) = [1, 1] ∧
    ∃ C, askedHeads.copy = .ok C ∧ C.formula.queue = [.ofPlace 1] ∧
      C.formula.withNegation (.ofPlace 0) = [] ∧
      (C.arena.modify 4 fun _ => Clause.empty).get 1 = .ofInts [2, 3] ∧
      (Solver.Horn.solve C).2.result = (Solver.Horn.solve askedHeads).2.result := by
  obtain ⟨C, hok, ⟨-, -, hqueue⟩, ⟨-, -, hfresh, hnegation⟩, hget, hpair, hresult, -⟩ :=
    copy_faithful used_askedHeads
  refine ⟨used_askedHeads, rfl, C, hok, hqueue, ?_, ?_, hresult⟩
  · have hnone : ∀ r ∈ askedHeads.formula.refs,
        (⟨.ofPlace 0, true⟩ : Literal) ∉ askedHeads.arena.get r := by decide
    rw [hnegation, List.map_eq_nil_iff, List.filter_eq_nil_iff]
    intro p hp hv
    exact hnone p.1 (List.of_mem_zip hp).1 (of_decide_eq_true hv)
  · have hone : askedHeads.formula.RefersTo 1 := .inl (by decide)
    have hfour : ¬ askedHeads.formula.RefersTo 4 := by
      rintro (hr | ⟨v, hv⟩)
      · revert hr
        decide
      · have hrefs : ∀ e ∈ askedHeads.formula.register, e.2 ≠ 4 := by decide
        exact hrefs _ hv rfl
    obtain ⟨-, hleft, -⟩ := hpair _ .refl
    rw [hleft _ (.single (.change (fun _ => Clause.empty) hfour)) 1 hone, hget 1 hone]
    rfl

end Workspace

end Clausal
