/-!
# Run-time checks of arguments

Values whose type is known at run time only, as they come from a caller in another notation, and
what is said when such a value does not fit the parameter it is given for.
-/

namespace Clausal

/-- The kinds of values. -/
inductive Kind where
  | null | bool | int | real | text | list | record
  deriving DecidableEq, Repr

namespace Kind

/-- The name of a kind in checks of parameters. -/
def name : Kind → String
  | .null => "None"
  | .bool => "bool"
  | .int => "int"
  | .real => "float"
  | .text => "str"
  | .list => "list"
  | .record => "dict"

/-- The name of a kind in checks of operands. -/
def operandName : Kind → String
  | .null => "NoneType"
  | k => k.name

end Kind

/-- The parameters that are checked. -/
inductive Parameter where
  | formula | text | algorithm | numVariables | clauses | clause | path | assignment
  deriving DecidableEq, Repr

namespace Parameter

/-- The name of a parameter. -/
def name : Parameter → String
  | .formula => "formula"
  | .text => "text"
  | .algorithm => "algorithm"
  | .numVariables => "num_variables"
  | .clauses => "clauses"
  | .clause => "clause"
  | .path => "path"
  | .assignment => "assignment"

end Parameter

/-- Why a value does not fit. -/
inductive Misfit where
  /-- The value is of the wrong kind for a parameter. -/
  | kind (parameter : Parameter) (given : Kind)
  /-- The first element of an assignment is no truth value. -/
  | element (given : Kind)
  /-- A value that is no integer stands for a literal. -/
  | literal (given : Kind)
  deriving DecidableEq, Repr

namespace Misfit

/-- What a value would have to be, for parameters of one type. -/
def required : Parameter → String
  | .formula => "cnfsat.cnf.Formula"
  | .text | .algorithm | .path => "str"
  | .numVariables => "int"
  | .clauses => "collections.abc.Iterable"
  | .clause => "cnfsat.cnf.Clause"
  | .assignment => "numpy.ndarray"

/-- The refusal of each type, for parameters of one of several types. -/
def alternatives : Parameter → List String
  | .clause =>
    ["cnfsat.cnf.Clause: is not an instance of cnfsat.cnf.Clause",
      "Iterable[Union[int, cnfsat.cnf.Literal]]: is not an instance of collections.abc.Iterable"]
  | .path =>
    ["str: is not an instance of str", "pathlib.Path: is not an instance of pathlib.Path"]
  | .assignment =>
    ["numpy.ndarray: is not an instance of numpy.ndarray", "Sequence[bool]: is not a sequence"]
  | _ => []

/-- The refusal of all of several types. -/
def unionMessage (subject : String) (reasons : List String) : String :=
  subject ++ " did not match any element in the union:"
    ++ String.join (reasons.map fun reason => "\n  " ++ reason)

/-- Wording of a misfit. -/
def message : Misfit → String
  | .kind p given =>
    let subject := "argument \"" ++ p.name ++ "\" (" ++ given.name ++ ")"
    match alternatives p with
    | [] => subject ++ " is not an instance of " ++ required p
    | reasons => unionMessage subject reasons
  | .element given =>
    unionMessage ("argument \"assignment\" (" ++ given.name ++ ")")
      ["numpy.ndarray: is not an instance of numpy.ndarray",
        "Sequence[bool]: item 0 is not an instance of bool"]
  | .literal given => "bad operand type for abs(): '" ++ given.operandName ++ "'"

end Misfit

end Clausal
