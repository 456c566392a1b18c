/-!
# Methods of solving

The three decision procedures and the names by which they are chosen. The name `auto` leaves the
choice to the shape of the formula.
-/

namespace Clausal

/-- A decision procedure. -/
inductive Method where
  /-- Backtracking search for formulas of any shape. -/
  | general
  /-- Implication graphs, for formulas whose clauses have two literals. -/
  | twoSat
  /-- Propagation of facts, for formulas whose clauses have at most one positive literal. -/
  | horn
  deriving DecidableEq, Repr

namespace Method

/-- The name by which a method is chosen. -/
def name : Method → String
  | .general => "general"
  | .twoSat => "two_sat"
  | .horn => "horn_sat"

/-- The name of the problem that a method decides. -/
def problem : Method → String
  | .general => "SAT"
  | .twoSat => "2-SAT"
  | .horn => "Horn-SAT"

end Method

/-- A way to choose the method: by the shape of the formula, or once and for all. -/
inductive Algorithm where
  | auto
  | fixed (method : Method)
  deriving DecidableEq, Repr

namespace Algorithm

/-- The name of a choice. -/
def name : Algorithm → String
  | .auto => "auto"
  | .fixed m => m.name

/-- All choices, in the order in which they are listed to the user. -/
def all : List Algorithm := [.auto, .fixed .general, .fixed .twoSat, .fixed .horn]

/-- The choice with a given name. -/
def ofName? (name : String) : Option Algorithm := all.find? (·.name == name)

/-- A choice is found by its name. -/
@[simp]
theorem ofName?_name (a : Algorithm) : ofName? a.name = some a := by
  rcases a with _ | _ | _ | _ <;> rfl

end Algorithm

end Clausal
