import Clausal.Solver.Horn
import Clausal.Solver.Search
import Clausal.Solver.TwoSat

/-!
# Choosing a method

Solving a formula by a named algorithm. The special methods refuse formulas that do not have their
shape. Left to itself, the choice falls on two-literal clauses first, then on Horn clauses, and on
search for everything else. Only the Horn method changes the formula that it is given; when it is
chosen by the shape of the formula it works on a copy.
-/

namespace Clausal.Solver

/-- The method that the shape of a formula asks for. -/
def select (f : Cnf) : Method :=
  if f.isTwoSat then .twoSat else if f.isHorn then .horn else .general

/-- Solves by a method without looking at the shape of the formula. -/
def apply (W : Workspace) : Method → Workspace × Report Assignment
  | .general => (W, Search.solve W.toCnf)
  | .twoSat => (W, TwoSat.solve W.toCnf)
  | .horn => Horn.solve W

/-- Whether a formula has the shape that a method asks for. -/
def suits (f : Cnf) : Method → Bool
  | .general => true
  | .twoSat => f.isTwoSat
  | .horn => f.isHorn

/-- Solves by a method a formula of the shape that the method asks for; any other is refused. -/
def applyIfSuited (W : Workspace) (m : Method) : Workspace × Report Assignment :=
  if suits W.toCnf m then apply W m else (W, .silent (.error (.wrongShape m)))

/-- Solves by an algorithm. A method that was chosen by the shape of the formula asks for the shape
again before it is used, the Horn method for that of the copy. -/
def run (W : Workspace) : Algorithm → Workspace × Report Assignment
  | .fixed m => applyIfSuited W m
  | .auto =>
    match select W.toCnf with
    | .horn =>
      match W.copy with
      | .error e => (W, .silent (.error e))
      | .ok copy => (W, .after (.selected .horn) (applyIfSuited copy .horn).2)
    | m => (W, .after (.selected m) (applyIfSuited W m).2)

/-- Solves by the algorithm of the given name. -/
def solve (W : Workspace) (name : String) : Workspace × Report Assignment :=
  match Algorithm.ofName? name with
  | none => (W, .silent (.error (.unknownAlgorithm name)))
  | some a => run W a

end Clausal.Solver
