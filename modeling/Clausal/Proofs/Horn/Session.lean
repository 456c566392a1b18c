import Clausal.Proofs.Horn.Marks
import Clausal.Proofs.Rebuilding

/-!
# Sessions with a formula and its copies

Callers go on with a formula after they have solved it, and with its copies. They may add a clause
several times and to several of these formulas, so that solving one of them changes clauses of the
others. The relation `Session.Reached` holds of what they can arrive at without a call being refused.
Main statement: whatever the calls, in each of the formulas the queue, the marks and the register
keep in step with each other and with the clauses, and the operations do what they would do without
marks (`Session.Reached.consistent`).
-/

namespace Clausal

/-! ### Formulas that stay indexed -/

namespace Workspace

variable {n : Nat} {W : Workspace}

/-- A copy can always be made, and it continues the arena. -/
lemma Indexed.copy (h : W.Indexed n) :
    ∃ C, W.copy = .ok C ∧ W.arena.Continues C.arena ∧ C.Indexed n := by
  obtain ⟨C, -, hbuilt, hC, -, hok⟩ := h.exists_copy
  refine ⟨_, hok, ?_, hbuilt.coherent.requeue h.nodup_queue⟩
  exact {
    size_le := hC.size_le
    mem_of_mem := fun r hr l hl => hC.get_eq r hr ▸ hl }

/-- Solving continues the arena, also if it comes to a contradiction or ends beyond the assignment.
-/
lemma Indexed.solve (h : W.Indexed n) :
    W.arena.Continues (Solver.Horn.solve W).1.arena ∧ (Solver.Horn.solve W).1.Indexed n := by
  have ht := Solver.Horn.trimmed_solve W
  have hq := Solver.Horn.nodup_queue_solve h.nodup_queue
  exact ⟨ht.continues, h.evolve ht.continues ht.numVariables_eq ht.refs_eq ht.register_eq hq⟩

end Workspace

namespace Marked

/-- The marks are those of the queue, which fits the clauses together with the register. -/
structure Sound (n : Nat) (A : Arena) (M : Marked) : Prop where
  eq_of : M = .of M.formula
  indexed : Workspace.Indexed n ⟨A, M.formula⟩

variable {n : Nat} {A A' : Arena} {M M' : Marked}

/-- A formula without clauses has no marks to keep in step. -/
lemma Sound.start (n : Nat) (A : Arena) : (empty n).Sound n A where
  eq_of := rfl
  indexed := .start n A

/-- A sound formula stays so over any arena that continues its own. -/
lemma Sound.continue (h : M.Sound n A) (hA : A.Continues A') : M.Sound n A' where
  eq_of := h.eq_of
  indexed := h.indexed.continue hA

/-- Adding a clause keeps a formula sound. -/
lemma Sound.attach {r : ClauseRef} (h : M.Sound n A) (hr : r < A.slots.size)
    (ha : M.attach A r = (M', .ok ())) : M'.Sound n A := by
  rw [h.eq_of, attach_of, Prod.mk.injEq] at ha
  obtain ⟨rfl, hok⟩ := ha
  exact {
    eq_of := rfl
    indexed := h.indexed.add hr (Formula.attached_of_attach (Prod.ext rfl hok)) }

/-- Putting a variable on the queue keeps a formula sound, even one beyond `n`. -/
lemma Sound.enqueue (h : M.Sound n A) (v : Variable) : (M.enqueue v).Sound n A := by
  rw [h.eq_of, enqueue_of]
  exact {
    eq_of := rfl
    indexed := h.indexed.push v }

/-- Taking a variable off the queue keeps a formula sound. -/
lemma Sound.dequeue {v : Variable} (h : M.Sound n A) (hd : M.dequeue = .ok (v, M')) :
    M'.Sound n A := by
  rw [h.eq_of] at hd
  cases hq : M.formula.queue with
  | nil =>
    rw [dequeue_of_nil hq] at hd
    cases hd
  | cons w rest =>
    rw [dequeue_of_cons h.indexed.nodup_queue hq] at hd
    cases hd
    have hrest : rest.Nodup := (hq ▸ h.indexed.nodup_queue).of_cons
    exact {
      eq_of := rfl
      indexed := h.indexed.requeue hrest }

/-- The copy of a sound formula is sound, in an arena that continues that of the formula. -/
lemma Sound.copy {C : Marked} (h : M.Sound n A) (hc : M.copy A = .ok (A', C)) :
    A.Continues A' ∧ C.Sound n A' := by
  obtain ⟨W, hok, hA, hW⟩ := h.indexed.copy
  rw [h.eq_of, copy_of, hok] at hc
  cases hc
  exact ⟨hA, rfl, hW⟩

/-- Solving leaves a sound formula, in an arena that continues the one before. -/
lemma Sound.solve (h : M.Sound n A) :
    A.Continues (M.solve A).1 ∧ (M.solve A).2.1.Sound n (M.solve A).1 := by
  rw [h.eq_of, solve_of h.indexed.nodup_queue]
  obtain ⟨hA, hW⟩ := h.indexed.solve
  exact ⟨hA, rfl, hW⟩

/-- The operations on a formula with marks do what they do without marks. -/
structure Agrees (A : Arena) (M : Marked) : Prop where
  enqueue : ∀ v, M.enqueue v = .of (M.formula.enqueue v)
  dequeue : M.dequeue = M.formula.dequeue.map fun p => (p.1, .of p.2)
  attach : ∀ r, M.attach A r = (.of (M.formula.attach A r).1, (M.formula.attach A r).2)
  copy : M.copy A = (Workspace.copy ⟨A, M.formula⟩).map fun W => (W.arena, .of W.formula)
  solve : M.solve A = ofResult (Solver.Horn.solve ⟨A, M.formula⟩)

/-- On a sound formula the operations do what they do without marks. -/
lemma Sound.agrees (h : M.Sound n A) : M.Agrees A := by
  rw [h.eq_of]
  exact {
    enqueue := enqueue_of M.formula
    dequeue := dequeue_of h.indexed.nodup_queue
    attach := attach_of A M.formula
    copy := copy_of A M.formula
    solve := solve_of h.indexed.nodup_queue }

end Marked

/-- A formula and its copies, together with the arena of their clauses. -/
structure Session where
  arena : Arena
  formulas : List Marked

namespace Session

/-- What callers can arrive at who start with a formula over `n` variables without clauses. They make
clauses, add clauses to one of the formulas, put variables on its queue or take them off it, copy it
and solve it. Variables put on the queue need not be variables of the formula, and solving need not
end with an assignment. -/
inductive Reached (n : Nat) : Session → Prop where
  | start (A) :
    Reached n ⟨A, [.empty n]⟩
  | make {A Ms} (c) :
    Reached n ⟨A, Ms⟩ →
    Reached n ⟨(A.alloc c).1, Ms⟩
  | add {A Ms r} {i : Nat} {M M' : Marked} :
    Reached n ⟨A, Ms⟩ →
    Ms[i]? = some M →
    r < A.slots.size →
    M.attach A r = (M', .ok ()) →
    Reached n ⟨A, Ms.set i M'⟩
  | push {A Ms} {i : Nat} {M : Marked} (v) :
    Reached n ⟨A, Ms⟩ →
    Ms[i]? = some M →
    Reached n ⟨A, Ms.set i (M.enqueue v)⟩
  | pop {A Ms v} {i : Nat} {M M' : Marked} :
    Reached n ⟨A, Ms⟩ →
    Ms[i]? = some M →
    M.dequeue = .ok (v, M') →
    Reached n ⟨A, Ms.set i M'⟩
  | copy {A A' Ms} {i : Nat} {M C : Marked} :
    Reached n ⟨A, Ms⟩ →
    Ms[i]? = some M →
    M.copy A = .ok (A', C) →
    Reached n ⟨A', Ms ++ [C]⟩
  | solve {A A' Ms report} {i : Nat} {M M' : Marked} :
    Reached n ⟨A, Ms⟩ →
    Ms[i]? = some M →
    M.solve A = (A', M', report) →
    Reached n ⟨A', Ms.set i M'⟩

/-- All formulas of a session are sound. -/
def Sound (n : Nat) (s : Session) : Prop := ∀ M ∈ s.formulas, M.Sound n s.arena

variable {n : Nat} {A A' : Arena} {Ms : List Marked} {M M' : Marked}

/-- Every formula of a sound session is sound. -/
lemma Sound.get {i : Nat} (h : Sound n ⟨A, Ms⟩) (hM : Ms[i]? = some M) : M.Sound n A :=
  h M (List.mem_of_getElem? hM)

/-- Replacing a formula by a sound one keeps a session sound if its arena is continued. -/
lemma Sound.set {i : Nat} (h : Sound n ⟨A, Ms⟩) (hA : A.Continues A') (hM' : M'.Sound n A') :
    Sound n ⟨A', Ms.set i M'⟩ := by
  intro M hM
  rcases List.mem_or_eq_of_mem_set hM with hM | rfl
  · exact (h M hM).continue hA
  · exact hM'

/-- Every session that is reached is sound. -/
lemma Reached.sound {s : Session} (h : Reached n s) : s.Sound n := by
  induction h with
  | start A =>
    intro M hM
    rw [List.mem_singleton] at hM
    exact hM ▸ .start n A
  | @make A Ms c _ ih =>
    intro M hM
    exact (ih M hM).continue (.alloc A c)
  | @add A Ms r i M M' _ hM hr ha ih => exact ih.set (.refl A) ((ih.get hM).attach hr ha)
  | @push A Ms i M v _ hM ih => exact ih.set (.refl A) ((ih.get hM).enqueue v)
  | @pop A Ms v i M M' _ hM hd ih => exact ih.set (.refl A) ((ih.get hM).dequeue hd)
  | copy _ hM hc ih =>
    obtain ⟨hA, hC⟩ := (ih.get hM).copy hc
    intro M' hM'
    rcases List.mem_append.mp hM' with hM' | hM'
    · exact (ih M' hM').continue hA
    · rw [List.mem_singleton] at hM'
      exact hM' ▸ hC
  | solve _ hM hs ih =>
    -- the other formulas may have clauses in common with the one solved
    obtain ⟨hA, hM'⟩ := (ih.get hM).solve
    rw [hs] at hA hM'
    exact ih.set hA hM'

/-- In every session that is reached, and for each of its formulas: the queue names no variable
twice, the marks are the variables on it, and a variable is put on it exactly if it does not wait
there; the clauses of the formula that have a negation are registered for it, and the clauses that
are registered for it are clauses of the formula; all variables of the clauses are from 1 to `n`.
The operations do what they do without marks. -/
theorem Reached.consistent {s : Session} (h : Reached n s) : ∀ M ∈ s.formulas,
    (M.formula.queue.Nodup ∧ (∀ v, v ∈ M.marks ↔ v ∈ M.formula.queue) ∧
      ∀ v, (M.enqueue v).formula.queue =
        if v ∈ M.formula.queue then M.formula.queue else M.formula.queue ++ [v]) ∧
    (∀ r ∈ M.formula.refs, ∀ v, (⟨v, true⟩ : Literal) ∈ s.arena.get r →
      r ∈ M.formula.withNegation v) ∧
    (∀ v, ∀ r ∈ M.formula.withNegation v, r ∈ M.formula.refs) ∧
    (M.formula.numVariables = n ∧ ∀ r ∈ M.formula.refs, ∀ l ∈ s.arena.get r,
      1 ≤ l.var.index ∧ l.var.index ≤ n) ∧
    M.Agrees s.arena := by
  intro M hM
  have hsound := h.sound M hM
  have hindexed := hsound.indexed
  refine ⟨⟨hindexed.nodup_queue, ?_, ?_⟩, ?_, ?_, ⟨hindexed.numVariables_eq, ?_⟩, hsound.agrees⟩
  · intro v
    rw [hsound.eq_of, Marked.marks_of, List.mem_toFinset, Marked.formula_of]
  · intro v
    rw [hsound.agrees.enqueue, Marked.formula_of, Formula.queue_enqueue]
  · intro r hr v hv
    exact Formula.mem_withNegation.mpr (hindexed.registered r hr v hv)
  · intro v r hr
    exact hindexed.ref_of_registered v r (Formula.mem_withNegation.mp hr)
  · intro r hr l hl
    exact ⟨l.var.index_pos, hindexed.index_le r hr l hl⟩

/-- A fact and an implication that was added twice. -/
def implied : Formula where
  numVariables := 2
  refs := [0, 1, 1]
  queue := [.ofPlace 0]
  register := [(.ofPlace 0, 1), (.ofPlace 0, 1)]

/-- The copy of the fact and the implication. -/
def impliedCopy : Formula where
  numVariables := 2
  refs := [2, 3, 4]
  queue := [.ofPlace 0]
  register := [(.ofPlace 0, 3), (.ofPlace 0, 4)]

/-- The clauses of the fact and the implication and those of the copy. -/
def impliedArena : Arena :=
  ⟨#[.ofInts [1], .ofInts [-1, 2], .ofInts [1], .ofInts [-1, 2], .ofInts [-1, 2]]⟩

/-- The clauses after the fact was struck out of the implication, but not out of the copies. -/
def struckArena : Arena :=
  ⟨#[.ofInts [1], .ofInts [2], .ofInts [1], .ofInts [-1, 2], .ofInts [-1, 2]]⟩

/-- The example and its copy are reached by making clauses, adding them and copying. -/
lemma reached_implied : Reached 2 ⟨impliedArena, [.of implied, .of impliedCopy]⟩ := by
  have h := Reached.start (n := 2) ⟨#[.ofInts [1], .ofInts [-1, 2]]⟩
  have h := h.add (i := 0) (r := 0) rfl (by decide) rfl
  have h := h.add (i := 0) (r := 1) rfl (by decide) rfl
  have h := h.add (i := 0) (r := 1) rfl (by decide) rfl
  exact h.copy (i := 0) rfl rfl

/-- Propagation strikes the fact out of the implication of the first formula only. -/
lemma propagate_implied :
    Solver.Horn.propagate ⟨impliedArena, implied⟩ (Assignment.allFalse 2) 0 =
      (⟨struckArena, { implied with queue := [] }⟩, .ok ([true, true], 1)) := by
  have hfact : implied.queue = [.ofPlace 0] := rfl
  have hrest : Solver.Horn.propagate ⟨struckArena, { implied with queue := [.ofPlace 1] }⟩
      [true, false] 1 = (⟨struckArena, { implied with queue := [] }⟩, .ok ([true, true], 1)) := by
    have hfound : ({ implied with queue := [.ofPlace 1] } : Formula).queue = [.ofPlace 1] := rfl
    rw [Solver.Horn.propagate_of_false 1 hfound rfl]
    exact Solver.Horn.propagate_of_nil 1 rfl
  rw [Solver.Horn.propagate_of_false 0 hfact rfl]
  exact hrest

/-- The Horn method with marks ends with what propagation finds in the first formula. -/
lemma solve_implied : (Marked.of implied).solve impliedArena =
    (struckArena, .of { implied with queue := [] }, ⟨[.propagated 1 2], .ok [true, true]⟩) := by
  have hsolve : Solver.Horn.solve ⟨impliedArena, implied⟩ =
      (⟨struckArena, { implied with queue := [] }⟩, ⟨[.propagated 1 2], .ok [true, true]⟩) := by
    have hnone : (implied.clauses impliedArena).any (·.literals.isEmpty) = false := rfl
    have hsize : implied.numVariables = 2 := rfl
    simp [Solver.Horn.solve, hnone, hsize, propagate_implied]
  rw [Marked.solve_of (by decide), hsolve]
  rfl

/-- The session after the first formula was solved, the fact that this left was added to the copy, a
variable that the copy does not have was put on its queue, and one was taken off. -/
def shared : Session where
  arena := struckArena
  formulas := [
    .of { implied with queue := [] },
    .of { impliedCopy with refs := [2, 3, 4, 1], queue := [.ofPlace 1, .ofPlace 2] }]

/-- The session of the example is reached by solving one formula and going on with its copy. -/
lemma reached_shared : Reached 2 shared := by
  have h := reached_implied.solve (i := 0) rfl solve_implied
  have h := h.add (i := 1) (r := 1) rfl (by decide) (Marked.attach_of struckArena impliedCopy 1)
  have h := h.push (i := 1) (.ofPlace 2) rfl
  rw [Marked.enqueue_of] at h
  exact h.pop (i := 1) rfl (Marked.dequeue_of_cons (by decide) rfl)

/-- In the example all marks are those of the queues, the variable that is not one of the formula is
marked, and the copies of the implication are registered. -/
theorem Reached.consistent_shared :
    Reached 2 shared ∧
    (∀ M ∈ shared.formulas, M.formula.queue.Nodup ∧ ∀ v, v ∈ M.marks ↔ v ∈ M.formula.queue) ∧
    ∃ M ∈ shared.formulas, .ofPlace 2 ∈ M.marks ∧ 3 ∈ M.formula.withNegation (.ofPlace 0) := by
  have hall := Reached.consistent reached_shared
  refine ⟨reached_shared, ?_, ?_⟩
  · intro M hM
    obtain ⟨⟨hnodup, hmarks, -⟩, -⟩ := hall M hM
    exact ⟨hnodup, hmarks⟩
  · have hM : .of { impliedCopy with
        refs := [2, 3, 4, 1], queue := [.ofPlace 1, .ofPlace 2] } ∈ shared.formulas := by
      simp [shared]
    obtain ⟨⟨-, hmarks, -⟩, hregistered, -⟩ := hall _ hM
    exact ⟨_, hM, (hmarks _).mpr (by decide), hregistered 3 (by decide) (.ofPlace 0) (by decide)⟩

end Session

end Clausal
