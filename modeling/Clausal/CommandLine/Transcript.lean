import Clausal.CommandLine.File
import Clausal.Settings
import Clausal.Solver.Dispatch

/-!
# Commands on formulas

What the program writes when it checks, classifies or solves a formula, and the number with which it
ends: zero for yes, one for no, and two if the question could not be answered.
-/

namespace Clausal.CommandLine

/-- What was written and reported, and the answer or the error that ended it. -/
structure Transcript (α : Type) where
  output : String
  events : List Event
  result : Except Error α

namespace Transcript

variable {α : Type}

/-- Writes a text and answers. -/
def say (text : String) (a : α) : Transcript α := ⟨text, [], .ok a⟩

/-- The same with something written and reported before. -/
def after (output : String) (events : List Event) (t : Transcript α) : Transcript α :=
  ⟨output ++ t.output, events ++ t.events, t.result⟩

end Transcript

/-- The number for yes. -/
def exitOk : Nat := 0

/-- The number for no. -/
def exitFalse : Nat := 1

/-- The number for a question without an answer. -/
def exitError : Nat := 2

/-- Whether an assignment satisfies a formula. -/
def sayCheck (f : Cnf) (a : Assignment) : Transcript Nat :=
  match f.check a with
  | .ok true => .say "The assignment satisfies the formula.\n" exitOk
  | .ok false => .say "The assignment does not satisfy the formula.\n" exitFalse
  | .error e => ⟨"", [], .error e⟩

/-- Whether the values that words stand for satisfy a formula; there has to be one for each
variable. -/
def sayCheckWords (f : Cnf) (words : List String) : Transcript Nat :=
  if words.length = f.numVariables then sayCheck f (words.map Settings.valueOf)
  else
    .say ("The formula contains " ++ Nat.repr f.numVariables ++ " variables, "
      ++ Nat.repr words.length ++ " values were given.\n") exitError

/-- The sentence on the shape of a formula. -/
def shapeSentence (suits : Bool) (m : Method) : String :=
  "The formula entered is " ++ (if suits then "" else "not ") ++ m.problem ++ ".\n"

/-- Whether a formula has the shape of a method. -/
def sayShape (f : Cnf) (m : Method) : Transcript Nat :=
  let suits := Solver.suits f m
  .say (shapeSentence suits m) (if suits then exitOk else exitFalse)

/-- The solution of a formula. -/
def saySolution (W : Workspace) (a : Algorithm) : Transcript Nat :=
  let r := (Solver.run W a).2
  match r.result with
  | .ok solution =>
    ⟨"The solution of the SAT problem is:\n" ++ solution.render ++ "\n", r.events, .ok exitOk⟩
  | .error (.unsatisfiable m) =>
    ⟨(Error.unsatisfiable m).message ++ "\n", r.events, .ok exitFalse⟩
  | .error (.wrongShape m) => ⟨shapeSentence false m, r.events, .ok exitError⟩
  | .error e => ⟨"", r.events, .error e⟩

/-- What to do with a loaded formula. An unreadable one is reported instead, with the answer
`otherwise`. -/
def withFormula {α : Type} (path : String) (loaded : Report Loaded) (otherwise : α)
    (use : Workspace → Transcript α) : Transcript α :=
  match loaded.result with
  | .error e => ⟨"", loaded.events, .error e⟩
  | .ok (.unreadable reason) =>
    ⟨"Cannot read formula from " ++ path ++ ": " ++ reason ++ "\n",
      loaded.events ++ [.unreadable path reason], .ok otherwise⟩
  | .ok (.formula W) => (use W).after "" loaded.events

/-- Loads the formula at a path as it was given. Nothing can be at a path with a zero character. -/
def loadAt {m : Type → Type} [Monad m] (fetch : Path → m Content) (path : String) :
    m (Report Loaded) :=
  if path.toList.contains '\x00' then return .silent (.error .zeroInPath)
  else do
    let p := Path.ofString path
    return load p (← fetch p)

end Clausal.CommandLine
