import Clausal.Family.Pigeonhole
import Clausal.Family.Random
import Clausal.Text.Hundredths

/-!
# Demonstrations

Two small programs that show the families of formulas at work: pigeons in up to three holes, and the
fraction of random formulas of eight variables that can be satisfied.
-/

namespace Clausal.Family.Demo

/-- A list between brackets. -/
def renderList (items : List String) : String := "[" ++ ", ".intercalate items ++ "]"

/-- The holes of each pigeon. -/
def renderPlacement : Option (List (List Nat)) → String
  | none => "None"
  | some seats => renderList (seats.map fun holes => renderList (holes.map Nat.repr))

/-- A line on pigeons in holes; the time that was taken is not measured. -/
def pigeonholeLine (pigeons holes : Nat) : Except Error String := do
  let W ← Pigeonhole.formula pigeons holes
  let result ← (Pigeonhole.placement W.toCnf pigeons holes).result
  return Nat.repr pigeons ++ " pigeons in " ++ Nat.repr holes ++ " holes: "
    ++ renderPlacement result ++ " (0.000s)\n"

/-- Pigeons in one to three holes, with as many pigeons as holes and with one more. -/
def pigeonhole : Except Error String := do
  let sizes := [1, 2, 3].flatMap fun holes => [(holes, holes), (holes + 1, holes)]
  return String.join (← sizes.mapM fun (pigeons, holes) => pigeonholeLine pigeons holes)

/-- A fraction with two decimal places. -/
def renderFraction (x : Float) : String := Text.showHundredths (.ofFloat x)

/-- A line on the random formulas of a family. -/
def familyLine (title : String) (recipe : Random.Recipe) (method : Method)
    (ratio : String × Random.Ratio) : Random.Gen String := do
  let fraction ← Random.compare recipe method 8 ratio.2 20
  return title ++ ", 8 variables, ratio " ++ ratio.1 ++ ": " ++ renderFraction fraction
    ++ " satisfiable\n"

/-- The lines on random formulas as far as the draws suffice, and the error that ended them. -/
def familyLines (written : String) : List (Random.Gen String) → Random.Gen (String × Option Error)
  | [] => return (written, none)
  | line :: rest => do
    let result ← ExceptT.lift line.run
    match result with
    | .ok text => familyLines (written ++ text) rest
    | .error e => return (written, some e)

/-- A random formula that has to have the shape of its method. -/
def shaped (recipe : Random.Recipe) (method : Method) : Random.Gen String := do
  let W ← recipe.formula 6 (.real 1.0)
  if Solver.suits W.toCnf method then return "" else throw .solutionRejected

/-- Random formulas of both families with several ratios of clauses to variables. -/
def random : Random.Gen (String × Option Error) :=
  familyLines "" <|
    ([("0.5", .real 0.5), ("1.0", .real 1.0), ("1.5", .real 1.5)].map
        (familyLine "2-SAT" .twoSat .twoSat))
      ++ ([("1.0", .real 1.0), ("2.0", .real 2.0), ("3.0", .real 3.0)].map
        (familyLine "Horn-SAT" .horn .horn))
      ++ [shaped .twoSat .twoSat, shaped .horn .horn]

end Clausal.Family.Demo
