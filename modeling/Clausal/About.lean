/-!
# About the library

The version of the library and the names under which it is known to its callers.
-/

namespace Clausal.About

/-- The version. -/
def version : String := "0.1.0"

/-- The names that callers use, in the order of their code points. -/
def publicNames : List String :=
  ["CNFSatError", "Clause", "Formula", "FormulaFormatError", "Graph", "Literal", "Model",
    "UnsatisfiableError", "Variable", "VariableAssignment", "check_assignment", "format_formula",
    "is_horn_sat", "is_two_sat", "parse_formula", "read_formula", "solve", "solve_general_sat",
    "solve_horn_sat", "solve_two_sat"]

end Clausal.About
