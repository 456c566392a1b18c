import Clausal.Proofs.Horn.Stray
import Mathlib.Data.Finset.Basic

/-!
# Marked queues

To find out whether a variable waits on the queue, a formula need not look through the queue: it can
keep the set of the variables that wait, and look there. Every operation then has to keep these
marks in step with the queue. Main statements: if the marks are those of the queue, all operations
do what they do without marks, and the marks are again those of the queue (`enqueue_of`,
`attach_of`, `copy_of`). For operations that take variables off the queue this needs that the queue
names no variable twice (`dequeue_of`, `solve_of`), which they keep up (`nodup_queue_solve`).
-/

namespace Clausal

namespace Solver.Horn

/-! ### Queues without repetitions -/

/-- Striking out puts no variable on the queue that waits there. -/
lemma nodup_queue_strike {W : Workspace} (v : Variable) (removed : Nat) (rs : List ClauseRef)
    (h : W.formula.queue.Nodup) : (strike v W removed rs).1.formula.queue.Nodup := by
  induction rs generalizing W removed with
  | nil => exact h
  | cons r rest ih =>
    rw [strike_cons]
    split
    · exact ih removed h
    split
    · exact h
    · exact ih (removed + 1) (nodup_queue_note h)

/-- Propagation puts no variable on the queue that waits there. -/
lemma nodup_queue_propagate (W : Workspace) (a : Assignment) (removed : Nat)
    (h : W.formula.queue.Nodup) : (propagate W a removed).1.formula.queue.Nodup := by
  fun_induction propagate W a removed with
  | case1 W a removed hq => exact h
  | case2 W a removed v rest hq W₁ hnone => exact (hq ▸ h).of_cons
  | case3 W a removed v rest hq W₁ htrue ih => exact ih (hq ▸ h).of_cons
  | case4 W a removed v rest hq W₁ hfalse W₂ e hs =>
    have hrest : W₁.formula.queue.Nodup := (hq ▸ h).of_cons
    have hstrike := nodup_queue_strike v removed (W₁.formula.withNegation v) hrest
    rwa [hs] at hstrike
  | case5 W a removed v rest hq W₁ hfalse W₂ k hs ih =>
    have hrest : W₁.formula.queue.Nodup := (hq ▸ h).of_cons
    have hstrike := nodup_queue_strike v removed (W₁.formula.withNegation v) hrest
    rw [hs] at hstrike
    exact ih hstrike

/-- The Horn method leaves a queue that names no variable twice, if it finds one. -/
lemma nodup_queue_solve {W : Workspace} (h : W.formula.queue.Nodup) :
    (solve W).1.formula.queue.Nodup := by
  have hp := nodup_queue_propagate W (Assignment.allFalse W.formula.numVariables) 0 h
  unfold solve
  split
  · exact h
  · split
    · next he => rwa [he] at hp
    · next he => rwa [he] at hp

end Solver.Horn

/-- A formula that keeps the set of the variables on its queue beside the queue. -/
structure Marked where
  formula : Formula
  marks : Finset Variable
  deriving DecidableEq

namespace Marked

/-! ### Operations that look at the marks -/

/-- The formula without clauses, with no variable marked. -/
def empty (n : Nat) : Marked := ⟨Formula.empty n, ∅⟩

/-- Marks a variable and puts it at the end of the queue, unless it is marked. -/
def enqueue (M : Marked) (v : Variable) : Marked :=
  if v ∈ M.marks then M
  else ⟨{ M.formula with queue := M.formula.queue ++ [v] }, insert v M.marks⟩

/-- Takes the next variable from the queue and its mark away. -/
def dequeue (M : Marked) : Except Error (Variable × Marked) :=
  match M.formula.queue with
  | [] => .error .emptyQueue
  | v :: rest => .ok (v, ⟨{ M.formula with queue := rest }, M.marks.erase v⟩)

/-- Adds a clause of the arena. -/
def attach (A : Arena) (M : Marked) (r : ClauseRef) : Marked × Except Error Unit :=
  match M.formula.registerAll r (A.get r).literals with
  | (F, false) => (⟨F, M.marks⟩, .error .variableOutOfRange)
  | (F, true) =>
    let M' : Marked := ⟨{ F with refs := F.refs ++ [r] }, M.marks⟩
    match (A.get r).fact? with
    | some v => (M'.enqueue v, .ok ())
    | none => (M', .ok ())

/-- Makes new clauses and adds them, as long as none is refused. -/
def addAll (A : Arena) (M : Marked) : List Clause → Except Error (Arena × Marked)
  | [] => .ok (A, M)
  | c :: rest =>
    match M.attach (A.alloc c).1 (A.alloc c).2 with
    | (M', .ok _) => addAll (A.alloc c).1 M' rest
    | (_, .error e) => .error e

/-- A separate formula with new clauses, whose queue is replaced by that of the formula copied, and
its marks by those of the new queue. -/
def copy (A : Arena) (M : Marked) : Except Error (Arena × Marked) :=
  match addAll A (empty M.formula.numVariables) (M.formula.clauses A) with
  | .error e => .error e
  | .ok (A', C) =>
    .ok (A', ⟨{ C.formula with queue := M.formula.queue }, M.formula.queue.toFinset⟩)

/-- Strikes the negation of `v` out of the referenced clauses, and marks the facts among them. -/
def strike (v : Variable) (A : Arena) (M : Marked) (removed : Nat) :
    List ClauseRef → Arena × Marked × Except Error Nat
  | [] => (A, M, .ok removed)
  | r :: rest =>
    let c := A.get r
    if ⟨v, true⟩ ∉ c then strike v A M removed rest
    else if c.size = 1 then (A, M, .error (.unsatisfiable .horn))
    else
      let c' := c.erase ⟨v, true⟩
      let A' := A.modify r fun _ => c'
      match c'.fact? with
      | some w =>
        if w = v then strike v A' M (removed + 1) rest
        else strike v A' (M.enqueue w) (removed + 1) rest
      | none => strike v A' M (removed + 1) rest

/-- Taking a variable off the queue makes it shorter. -/
lemma length_lt_of_dequeue {M M' : Marked} {v : Variable} (h : M.dequeue = .ok (v, M')) :
    M'.formula.queue.length < M.formula.queue.length := by
  unfold dequeue at h
  split at h
  · cases h
  · next hq =>
    cases h
    simp [hq]

/-- Propagates the queue until it is empty. -/
def propagate (A : Arena) (M : Marked) (a : Assignment) (removed : Nat) :
    Arena × Marked × Except Error (Assignment × Nat) :=
  match _hq : M.dequeue with
  | .error _ => (A, M, .ok (a, removed))
  | .ok (v, M') =>
    match _hv : a[v.place]? with
    | none => (A, M', .error (.beyondAssignment v.place a.length))
    | some true => propagate A M' a removed
    | some false =>
      match strike v A M' removed (M'.formula.withNegation v) with
      | (A', M'', .error e) => (A', M'', .error e)
      | (A', M'', .ok removed') => propagate A' M'' (a.set v.place true) removed'
termination_by (a.count false, M.formula.queue.length)
decreasing_by
  · exact Prod.Lex.right _ (length_lt_of_dequeue _hq)
  · exact Prod.Lex.left _ _ (Solver.Horn.count_false_set _hv)

/-- The least solution of a Horn formula, or the error that none exists, with what is left of the
clauses and of the formula. -/
def solve (A : Arena) (M : Marked) : Arena × Marked × Report Assignment :=
  if (M.formula.clauses A).any (·.literals.isEmpty) then
    (A, M, .silent (.error (.unsatisfiable .horn)))
  else
    match propagate A M (Assignment.allFalse M.formula.numVariables) 0 with
    | (A', M', .error e) => (A', M', .silent (.error e))
    | (A', M', .ok (a, removed)) => (A', M', ⟨[.propagated removed (a.count true)], .ok a⟩)

/-! ### Marks in step with the queue -/

/-- The formula with the variables on its queue marked. -/
def of (F : Formula) : Marked := ⟨F, F.queue.toFinset⟩

/-- What an operation leaves, with the variables on the queue marked. -/
def ofResult {α : Type} (R : Workspace × α) : Arena × Marked × α :=
  (R.1.arena, .of R.1.formula, R.2)

/-- Marking the variables on the queue does not change the formula. -/
@[simp]
lemma formula_of (F : Formula) : (of F).formula = F := rfl

/-- The variables marked are those on the queue. -/
@[simp]
lemma marks_of (F : Formula) : (of F).marks = F.queue.toFinset := rfl

/-- A formula without clauses has no variable on its queue, and none is marked. -/
lemma empty_eq (n : Nat) : empty n = of (Formula.empty n) := rfl

/-- Looking at the marks comes to the same as looking through the queue. -/
lemma enqueue_of (F : Formula) (v : Variable) : (of F).enqueue v = of (F.enqueue v) := by
  have hmarks : insert v F.queue.toFinset = (F.queue ++ [v]).toFinset := by
    ext w
    rw [Finset.mem_insert, List.mem_toFinset, List.mem_toFinset, List.mem_append,
      List.mem_singleton, or_comm]
  by_cases hv : v ∈ F.queue
  · simp only [enqueue, Formula.enqueue, of, List.mem_toFinset, if_pos hv]
  · simp only [enqueue, Formula.enqueue, of, List.mem_toFinset, if_neg hv, hmarks]

/-- From an empty queue nothing can be taken, marked or not. -/
lemma dequeue_of_nil {F : Formula} (hq : F.queue = []) :
    (of F).dequeue = .error .emptyQueue := by
  simp only [dequeue, formula_of, hq]

/-- If the variable taken off the queue did not wait twice, it does not wait any more. -/
lemma dequeue_of_cons {F : Formula} {v : Variable} {rest : List Variable} (h : F.queue.Nodup)
    (hq : F.queue = v :: rest) : (of F).dequeue = .ok (v, of { F with queue := rest }) := by
  rw [hq] at h
  have hmarks : (v :: rest).toFinset.erase v = rest.toFinset := by
    rw [List.toFinset_cons, Finset.erase_insert]
    simpa using (List.nodup_cons.mp h).1
  simp only [dequeue, of, hq, hmarks]

/-- Taking a variable off a queue that names none twice leaves the others marked. -/
lemma dequeue_of {F : Formula} (h : F.queue.Nodup) :
    (of F).dequeue = F.dequeue.map fun p => (p.1, of p.2) := by
  cases hq : F.queue with
  | nil => simp only [dequeue_of_nil hq, Formula.dequeue, hq, Except.map]
  | cons v rest => simp only [dequeue_of_cons h hq, Formula.dequeue, hq, Except.map]

/-- Entries in the register do not change the queue. -/
lemma queue_registerAll (F : Formula) (r : ClauseRef) (ls : List Literal) :
    (F.registerAll r ls).1.queue = F.queue := by
  induction ls generalizing F with
  | nil => rfl
  | cons l rest ih =>
    simp only [Formula.registerAll]
    split
    · rfl
    split
    · rw [ih]
    · rw [ih]

/-- Adding a clause with marks does what it does without them. -/
lemma attach_of (A : Arena) (F : Formula) (r : ClauseRef) :
    (of F).attach A r = (of (F.attach A r).1, (F.attach A r).2) := by
  cases hr : F.registerAll r (A.get r).literals with
  | mk G full =>
    have hq : F.queue = G.queue := by
      rw [← queue_registerAll F r (A.get r).literals, hr]
    simp only [attach, Formula.attach, formula_of, marks_of, hr, hq]
    cases full with
    | false => rfl
    | true =>
      cases (A.get r).fact? with
      | none => rfl
      | some v =>
        have hv := enqueue_of { G with refs := G.refs ++ [r] } v
        exact congrArg (fun M => (M, Except.ok ())) hv

/-- Adding new clauses with marks does what it does without them. -/
lemma addAll_of (A : Arena) (F : Formula) (cs : List Clause) :
    addAll A (of F) cs = (Workspace.addAll ⟨A, F⟩ cs).map fun W => (W.arena, of W.formula) := by
  induction cs generalizing A F with
  | nil => rfl
  | cons c rest ih =>
    simp only [addAll, Workspace.addAll, Workspace.add, attach_of]
    cases (F.attach (A.alloc c).1 (A.alloc c).2) with
    | mk G result =>
      cases result with
      | error e => rfl
      | ok u => exact ih (A.alloc c).1 G

/-- Copying with marks does what it does without them, and marks what waits on the queue copied. -/
lemma copy_of (A : Arena) (F : Formula) :
    (of F).copy A = (Workspace.copy ⟨A, F⟩).map fun W => (W.arena, of W.formula) := by
  simp only [copy, Workspace.copy, formula_of, empty_eq, addAll_of]
  cases Workspace.addAll ⟨A, Formula.empty F.numVariables⟩ (F.clauses A) with
  | error e => rfl
  | ok W => rfl

/-- Striking out with marks does what it does without them. -/
lemma strike_of (v : Variable) (A : Arena) (F : Formula) (removed : Nat) (rs : List ClauseRef) :
    strike v A (of F) removed rs = ofResult (Solver.Horn.strike v ⟨A, F⟩ removed rs) := by
  induction rs generalizing A F removed with
  | nil => rfl
  | cons r rest ih =>
    simp only [strike, Solver.Horn.strike]
    split
    · exact ih A F removed
    split
    · rfl
    cases ((A.get r).erase ⟨v, true⟩).fact? with
    | none => exact ih _ F (removed + 1)
    | some w =>
      by_cases hw : w = v
      · simp only [hw, ↓reduceIte]
        exact ih _ F (removed + 1)
      · simp only [hw, ↓reduceIte, enqueue_of]
        exact ih _ (F.enqueue w) (removed + 1)

/-- Propagation with marks ends when the queue is empty. -/
lemma propagate_of_error {A : Arena} {M : Marked} {a : Assignment} {removed : Nat} {e : Error}
    (h : M.dequeue = .error e) : propagate A M a removed = (A, M, .ok (a, removed)) := by
  rw [propagate]
  split
  · rfl
  · next h' => cases h.symm.trans h'

/-- Propagation with marks goes by the value of the next variable on the queue. -/
lemma propagate_of_ok {A : Arena} {M M' : Marked} {a : Assignment} {removed : Nat} {v : Variable}
    (h : M.dequeue = .ok (v, M')) : propagate A M a removed =
      match a[v.place]? with
      | none => (A, M', .error (.beyondAssignment v.place a.length))
      | some true => propagate A M' a removed
      | some false =>
        match strike v A M' removed (M'.formula.withNegation v) with
        | (A', M'', .error e) => (A', M'', .error e)
        | (A', M'', .ok removed') => propagate A' M'' (a.set v.place true) removed' := by
  rw [propagate]
  split
  · next h' => cases h.symm.trans h'
  · next h' =>
    cases h.symm.trans h'
    split
    · next hv => simp only [hv]
    · next hv => simp only [hv]
    · next hv => simp only [hv]

/-- Propagation with marks does what it does without them, as long as no variable waits twice. -/
lemma propagate_of {W : Workspace} (a : Assignment) (removed : Nat) (h : W.formula.queue.Nodup) :
    propagate W.arena (of W.formula) a removed =
      ofResult (Solver.Horn.propagate W a removed) := by
  fun_induction Solver.Horn.propagate W a removed with
  | case1 W a removed hq => exact propagate_of_error (dequeue_of_nil hq)
  | case2 W a removed v rest hq W₁ hnone =>
    rw [propagate_of_ok (dequeue_of_cons h hq), hnone]
    rfl
  | case3 W a removed v rest hq W₁ htrue ih =>
    rw [propagate_of_ok (dequeue_of_cons h hq), htrue]
    exact ih (hq ▸ h).of_cons
  | case4 W a removed v rest hq W₁ hfalse W₂ e hs =>
    have hs' := strike_of v W₁.arena W₁.formula removed (W₁.formula.withNegation v)
    simp only [hs] at hs'
    rw [propagate_of_ok (dequeue_of_cons h hq), hfalse]
    simp only [formula_of]
    rw [hs']
    rfl
  | case5 W a removed v rest hq W₁ hfalse W₂ k hs ih =>
    have hrest : W₁.formula.queue.Nodup := (hq ▸ h).of_cons
    have hnodup := Solver.Horn.nodup_queue_strike v removed (W₁.formula.withNegation v) hrest
    rw [hs] at hnodup
    have hs' := strike_of v W₁.arena W₁.formula removed (W₁.formula.withNegation v)
    simp only [hs] at hs'
    rw [propagate_of_ok (dequeue_of_cons h hq), hfalse]
    simp only [formula_of]
    rw [hs']
    exact ih hnodup

/-- The Horn method with marks does what it does without them, as long as no variable waits
twice. -/
lemma solve_of {A : Arena} {F : Formula} (h : F.queue.Nodup) :
    solve A (of F) = ofResult (Solver.Horn.solve ⟨A, F⟩) := by
  simp only [solve, Solver.Horn.solve, formula_of, propagate_of (W := ⟨A, F⟩) _ _ h]
  split
  · rfl
  · cases Solver.Horn.propagate ⟨A, F⟩ (Assignment.allFalse F.numVariables) 0 with
    | mk W result =>
      cases result with
      | error e => rfl
      | ok p => rfl

end Marked

end Clausal
