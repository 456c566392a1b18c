import Clausal.Event
import Clausal.Formula

/-!
# Horn formulas

A Horn formula, where every clause has at most one positive literal, is solved by propagating facts.
The variables on the queue are made true one after the other, and the negation of each is struck out
of the clauses registered for it. A clause left with a single positive literal is a new fact, and a
clause that would be left empty is a contradiction. What is never forced stays false, so the
solution found is the least one.

The clauses are changed in place, and what was changed before a contradiction stays changed.
-/

namespace Clausal.Solver.Horn

/-- Strikes the negation of `v` out of the referenced clauses, one after the other, and counts the
literals struck out. It ends with a contradiction at a clause that has no other literal. -/
def strike (v : Variable) (W : Workspace) (removed : Nat) :
    List ClauseRef → Workspace × Except Error Nat
  | [] => (W, .ok removed)
  | r :: rest =>
    let c := W.arena.get r
    if ⟨v, true⟩ ∉ c then strike v W removed rest
    else if c.size = 1 then (W, .error (.unsatisfiable .horn))
    else
      let c' := c.erase ⟨v, true⟩
      let A := W.arena.modify r fun _ => c'
      match c'.fact? with
      | some w =>
        if w = v then strike v ⟨A, W.formula⟩ (removed + 1) rest
        else strike v ⟨A, W.formula.enqueue w⟩ (removed + 1) rest
      | none => strike v ⟨A, W.formula⟩ (removed + 1) rest

/-- Making a false entry true leaves fewer false ones. -/
theorem count_false_set {a : Assignment} {i : Nat} (h : a[i]? = some false) :
    (a.set i true).count false < a.count false := by
  obtain ⟨hi, hb⟩ := List.getElem?_eq_some_iff.mp h
  have hpos : 0 < a.count false := List.count_pos_iff.mpr (hb ▸ List.getElem_mem hi)
  have hset := List.count_set hi (a := true) (b := false)
  simp only [hb] at hset
  simp at hset
  omega

/-- Propagates the queue until it is empty, with the assignment so far and the number of literals
struck out so far. -/
def propagate (W : Workspace) (a : Assignment) (removed : Nat) :
    Workspace × Except Error (Assignment × Nat) :=
  match _hq : W.formula.queue with
  | [] => (W, .ok (a, removed))
  | v :: rest =>
    let W' : Workspace := { W with formula := { W.formula with queue := rest } }
    match _hv : a[v.place]? with
    | none => (W', .error (.beyondAssignment v.place a.length))
    | some true => propagate W' a removed
    | some false =>
      match strike v W' removed (W'.formula.withNegation v) with
      | (W'', .error e) => (W'', .error e)
      | (W'', .ok removed') => propagate W'' (a.set v.place true) removed'
termination_by (a.count false, W.formula.queue.length)
decreasing_by
  · simp only [_hq, List.length_cons]
    exact Prod.Lex.right _ (Nat.lt_succ_self _)
  · exact Prod.Lex.left _ _ (count_false_set _hv)

/-- The least solution of a Horn formula, or the error that none exists, and the formula that is
left. -/
def solve (W : Workspace) : Workspace × Report Assignment :=
  if (W.formula.clauses W.arena).any (·.literals.isEmpty) then
    (W, .silent (.error (.unsatisfiable .horn)))
  else
    match propagate W (Assignment.allFalse W.formula.numVariables) 0 with
    | (W', .error e) => (W', .silent (.error e))
    | (W', .ok (a, removed)) => (W', ⟨[.propagated removed (a.count true)], .ok a⟩)

end Clausal.Solver.Horn
