import Clausal.Binary
import Clausal.Solver.Dispatch

/-!
# Random formulas

Families of random formulas that fit a special method, and the comparison of that method with search
on them. The random numbers come from a list of draws, which are used one after the other.
-/

namespace Clausal.Family.Random

/-- A random value. -/
inductive Draw where
  /-- An integer of a range. -/
  | number (value : Int)
  /-- A choice of several values, which are stored in words. -/
  | choice (values : List Int64)
  /-- A number from zero to one. -/
  | unit (value : Float)

/-- The draws that are left and what was reported so far. -/
structure State where
  draws : List Draw
  events : List Event

/-- A computation that uses up draws. What it used and reported is known even if it fails. -/
abbrev Gen := ExceptT Error (StateM State)

/-- Uses the next draw. -/
def draw : Gen Draw := do
  match (← get).draws with
  | [] => throw .drawsExhausted
  | d :: rest =>
    modify fun s => { s with draws := rest }
    return d

/-- Uses the next draw as a choice of values. -/
def drawChoice : Gen (List Int64) := do
  match ← draw with
  | .choice values => return values
  | _ => return []

/-- The integer that is left of a number without its fraction. -/
def wholeNumber (x : Float) : Except Error Int :=
  match Binary.ofFloat x with
  | .finite negative mantissa exponent =>
    let n : Int := Binary.wholePart mantissa exponent
    .ok (if negative then -n else n)
  | .infinite _ => .error .infinityAsInteger
  | .undefined => .error .undefinedAsInteger

/-- Uses the next draw as an integer. -/
def drawNumber : Gen Int := do
  match ← draw with
  | .number i => return i
  | .unit x => wholeNumber x
  | .choice _ => return 0

/-- Uses the next draw as a number from zero to one and tells whether it is below the bound. -/
def drawBelow (bound : Float) : Gen Bool := do
  match ← draw with
  | .unit x => return x < bound
  | .number i => return Float.ofInt i < bound
  | .choice _ => return false

/-- The number of clauses for each variable. -/
inductive Ratio where
  | whole (value : Int)
  | real (value : Float)

/-- The number of clauses of a formula with `size` variables, rounded towards zero. -/
def Ratio.clauses (size : Nat) : Ratio → Except Error Nat
  | .whole k => .ok (size * k).toNat
  | .real x =>
    let n := Float.ofNat size
    if n.isInf then .error .sizeBeyondBinary else Int.toNat <$> wholeNumber (n * x)

/-- A kind of random formulas. -/
inductive Recipe where
  | twoSat
  | horn
  deriving DecidableEq, Repr

/-- A random clause of two literals: two variables, counted from zero, and two signs. The literals
are computed in words. -/
def twoSatClause : Gen (List Int) := do
  let vars ← drawChoice
  let signs ← drawChoice
  return List.zipWith (fun v s => ((v + 1) * s).toInt) vars signs

/-- A random Horn clause: negated variables, counted from zero, and a positive one, which is always
there if nothing is negated and otherwise seven times out of ten. The number of negated variables is
drawn before they are chosen. -/
def hornClause : Gen (List Int) := do
  let _ ← draw
  let body := (← drawChoice).map fun v => -(v + 1).toInt
  if ← (if body.isEmpty then pure true else drawBelow 0.7) then
    return body ++ [← drawNumber]
  else
    return body

/-- A random clause of a family. -/
def Recipe.clause : Recipe → Gen (List Int)
  | .twoSat => twoSatClause
  | .horn => hornClause

/-- The clause of a list of signed integers. -/
def clauseOf (is : List Int) : Except Error Clause :=
  Clause.ofList <$> is.mapM fun i =>
    match Literal.ofInt? i with
    | some l => .ok l
    | none => .error .zeroLiteral

/-- Adds random clauses to a formula. -/
def addRandom (recipe : Recipe) (W : Workspace) : Nat → Gen Workspace
  | 0 => return W
  | count + 1 => do
    let c ← clauseOf (← recipe.clause)
    match W.add c with
    | (W', .ok _) => addRandom recipe W' count
    | (_, .error e) => throw e

/-- A random formula with `size` variables. -/
def Recipe.formula (recipe : Recipe) (size : Int) (ratio : Ratio) : Gen Workspace := do
  let W ← Workspace.ofClauses size []
  addRandom recipe W (← ratio.clauses W.formula.numVariables)

/-- Whether a method finds a solution, which must satisfy the formula that the method leaves. -/
def satisfiable (method : Method) (W : Workspace) : Gen Bool := do
  let (W', r) := Solver.apply W method
  modify fun s => { s with events := s.events ++ r.events }
  match r.result with
  | .error (.unsatisfiable _) => return false
  | .error e => throw e
  | .ok a =>
    if ← W'.toCnf.check a then return true else throw .solutionRejected

/-- How many of `count` random formulas can be satisfied, where a method has to agree with search on
each of them. -/
def countSatisfiable (recipe : Recipe) (method : Method) (size : Int) (ratio : Ratio) :
    Nat → Gen Nat
  | 0 => return 0
  | count + 1 => do
    let W ← recipe.formula size ratio
    let special ← satisfiable method (← W.copy)
    let general ← satisfiable .general W
    if special != general then throw .verdictsDiffer
    let others ← countSatisfiable recipe method size ratio count
    return others + if special then 1 else 0

/-- The fraction of random formulas that can be satisfied: their number divided by the number of all.
There is no fraction of no formulas, and that of fewer than zero formulas is zero with a sign. -/
def compare (recipe : Recipe) (method : Method) (size : Int) (ratio : Ratio) (count : Int) :
    Gen Float := do
  let found ← countSatisfiable recipe method size ratio count.toNat
  if count = 0 then throw .noFormulas
  else return Float.ofNat found / Float.ofInt count

end Clausal.Family.Random
