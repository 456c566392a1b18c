import Clausal.Formula
import Clausal.Solver.Search

/-!
# Pigeons in holes

The formulas that put pigeons into holes: every pigeon sits in some hole, and no two pigeons share
one. The variable for pigeon `p` in hole `h` is numbered `p * holes + h + 1`, both counted from
zero.
-/

namespace Clausal.Family.Pigeonhole

/-- The variable for a pigeon in a hole. -/
def seat (holes p h : Nat) : Variable := Variable.ofPlace (p * holes + h)

/-- Pigeon `p` sits in some hole. -/
def sits (holes p : Nat) : Clause :=
  Clause.ofList ((List.range holes).map fun h => ⟨seat holes p h, false⟩)

/-- Pigeons `p` and `q` do not share hole `h`. -/
def apart (holes h p q : Nat) : Clause :=
  Clause.ofList [⟨seat holes p h, true⟩, ⟨seat holes q h, true⟩]

/-- The pairs of different numbers below `n`, the smaller one first. -/
def pairs (n : Nat) : List (Nat × Nat) :=
  (List.range n).flatMap fun p => ((List.range n).drop (p + 1)).map fun q => (p, q)

/-- The clauses that put pigeons into holes. -/
def clauses (pigeons holes : Nat) : List Clause :=
  (List.range pigeons).map (sits holes) ++
    (List.range holes).flatMap fun h => (pairs pigeons).map fun (p, q) => apart holes h p q

/-- The formula that puts pigeons into holes. A negative number of pigeons or holes stands for none,
but the number of variables is always the product of the two. -/
def formula (pigeons holes : Int) : Except Error Workspace :=
  Workspace.ofClauses (pigeons * holes) (clauses pigeons.toNat holes.toNat)

/-- The holes in which an assignment puts a pigeon. -/
def holesOf (a : Assignment) (holes p : Nat) : Except Error (List Nat) := do
  let taken ← (List.range holes).mapM fun h => do return (h, ← a.read (p * holes + h))
  return (taken.filter (·.2)).map (·.1)

/-- The holes of each pigeon in a solution of a formula, or nothing if the formula has none. -/
def placement (f : Cnf) (pigeons holes : Int) : Report (Option (List (List Nat))) :=
  let r := Solver.Search.solve f
  match r.result with
  | .error (.unsatisfiable _) => ⟨r.events, .ok none⟩
  | .error e => ⟨r.events, .error e⟩
  | .ok a => ⟨r.events, some <$> (List.range pigeons.toNat).mapM (holesOf a holes.toNat)⟩

end Clausal.Family.Pigeonhole
