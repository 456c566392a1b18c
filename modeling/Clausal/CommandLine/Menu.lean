import Clausal.CommandLine.Transcript
import Clausal.Text.Blank

/-!
# The menu

The dialogue in which the user picks an operation by its number and gives the path of a formula. The
answers of the user are words, which are used one after the other: in each round a selection, a path
and, for checking an assignment, a value for each variable. When the words run out, missing values
are false and the menu is closed.
-/

namespace Clausal.CommandLine.Menu

/-- The operations to pick from. -/
def listing : String :=
  "\nPress a button from 1 to 7:\n\t1. Check Assignment.\n\t2. Is 2-SAT.\n\t3. Is Horn-SAT.\n"
    ++ "\t4. Solve General SAT.\n\t5. Solve 2-SAT.\n\t6. Solve Horn-SAT.\n\t7. Close\n"

/-- The question for a selection. -/
def selectionPrompt : String := "Enter your selection: "

/-- The question for a path. -/
def pathPrompt : String := "Please enter the path of the file containing the SAT formula:\n"

/-- What is written first. -/
def greeting : String := "Welcome to the CNF SAT solver.\n"

/-- What is written last. -/
def farewell : String := "Exiting command line interface.\n"

/-- An operation of the menu. -/
inductive Selection where
  | check
  | classify (method : Method)
  | solve (method : Method)
  | close
  deriving DecidableEq, Repr

/-- The operation with a given number. -/
def Selection.ofWord? : String → Option Selection
  | "1" => some .check
  | "2" => some (.classify .twoSat)
  | "3" => some (.classify .horn)
  | "4" => some (.solve .general)
  | "5" => some (.solve .twoSat)
  | "6" => some (.solve .horn)
  | "7" => some .close
  | _ => none

/-- The values of `n` variables by the words that are there; missing ones are false. -/
def valuesOf (n : Nat) (words : List String) : Assignment :=
  (List.range n).map fun i => (words[i]?.map Settings.valueOf).getD false

/-- The questions for the values of `n` variables. -/
def valuePrompts (n : Nat) : String :=
  "The formula contains " ++ Nat.repr n ++ " variables.\n"
    ++ "Enter the assignments one by one (enter 1 for true, anything else for false):\n"
    ++ String.join ((List.range n).map fun i =>
      "\tAssignment for variable " ++ Nat.repr (i + 1) ++ ": ")

/-- Performs an operation on a formula and tells how many words it used. -/
def perform (W : Workspace) (words : List String) : Selection → Transcript Nat
  | .check =>
    let n := W.formula.numVariables
    let t := sayCheck W.toCnf (valuesOf n words)
    ⟨valuePrompts n ++ t.output, t.events, t.result.map fun _ => n⟩
  | .classify m =>
    let t := sayShape W.toCnf m
    ⟨t.output, t.events, t.result.map fun _ => 0⟩
  | .solve m =>
    let t := saySolution W (.fixed m)
    ⟨t.output, t.events, t.result.map fun _ => 0⟩
  | .close => .say "" 0

/-- Goes through the rounds of the dialogue. -/
def rounds {m : Type → Type} [Monad m] (fetch : Path → m Content) (words : List String) :
    m (Transcript Nat) :=
  match words with
  | [] => return .say (listing ++ selectionPrompt ++ farewell) exitOk
  | selection :: rest =>
    match Selection.ofWord? selection with
    | none =>
      return (← rounds fetch rest).after (listing ++ selectionPrompt ++ "Incorrect input.\n") []
    | some .close => return .say (listing ++ selectionPrompt ++ farewell) exitOk
    | some operation =>
      let asked := listing ++ selectionPrompt ++ pathPrompt
      match rest with
      | [] => return (← rounds fetch []).after asked []
      | path :: rest' => do
        let t := withFormula path (← loadAt fetch path) 0 fun W => perform W rest' operation
        match t.result with
        | .error e => return ⟨asked ++ t.output, t.events, .error e⟩
        | .ok used => return (← rounds fetch (rest'.drop used)).after (asked ++ t.output) t.events
termination_by words.length
decreasing_by
  all_goals simp only [List.length_cons, List.length_nil, List.length_drop]
  all_goals omega

/-- The whole dialogue. -/
def run {m : Type → Type} [Monad m] (fetch : Path → m Content) (input : String) :
    m (Transcript Nat) :=
  return (← rounds fetch (Text.words input)).after greeting []

end Clausal.CommandLine.Menu
