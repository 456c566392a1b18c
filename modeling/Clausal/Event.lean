import Clausal.Error

/-!
# Events

What the library reports while it works. Each event has a level of importance and names the part of
the library that it comes from.
-/

namespace Clausal

/-- How important an event is. -/
inductive Level where
  | notset | debug | info | warning | error | critical
  deriving DecidableEq, Repr

namespace Level

/-- Importance as a number. -/
def weight : Level → Nat
  | .notset => 0
  | .debug => 10
  | .info => 20
  | .warning => 30
  | .error => 40
  | .critical => 50

/-- The name of a level. -/
def name : Level → String
  | .notset => "NOTSET"
  | .debug => "DEBUG"
  | .info => "INFO"
  | .warning => "WARNING"
  | .error => "ERROR"
  | .critical => "CRITICAL"

/-- The level with a given name; two levels have a second name. -/
def ofName? : String → Option Level
  | "NOTSET" => some .notset
  | "DEBUG" => some .debug
  | "INFO" => some .info
  | "WARN" | "WARNING" => some .warning
  | "ERROR" => some .error
  | "CRITICAL" | "FATAL" => some .critical
  | _ => none

end Level

/-- Something reported. -/
inductive Event where
  /-- The shape of a formula decided the method. -/
  | selected (method : Method)
  /-- The size of an implication graph and the number of its strongly connected components. -/
  | implicationGraph (vertices edges components : Nat)
  /-- Horn propagation ended with this many literals removed and variables made true. -/
  | propagated (removed facts : Nat)
  /-- Search found a model after this many decisions and forced moves. -/
  | modelFound (decisions forced : Nat)
  /-- A formula file was read. -/
  | parsed (numVariables numClauses : Nat)
  /-- The configured algorithm does not exist. -/
  | unrecognizedAlgorithm (name : String)
  /-- The configured level does not exist. -/
  | unrecognizedLevel (name : String)
  /-- A formula file could not be read. -/
  | unreadable (path reason : String)
  deriving DecidableEq, Repr

namespace Event

/-- The importance of an event. -/
def level : Event → Level
  | .selected _ => .info
  | .unrecognizedAlgorithm _ | .unrecognizedLevel _ => .warning
  | _ => .debug

/-- The part of the library that an event comes from. -/
def source : Event → String
  | .selected _ => "cnfsat.solver"
  | .implicationGraph .. => "cnfsat.twosat"
  | .propagated .. => "cnfsat.hornsat"
  | .modelFound .. => "cnfsat.dpll"
  | .parsed .. => "cnfsat.reader"
  | .unrecognizedAlgorithm _ | .unrecognizedLevel _ => "cnfsat.config"
  | .unreadable .. => "cnfsat.cli"

/-- Wording of an event. -/
def message : Event → String
  | .selected m => "selected the " ++ m.name ++ " solver"
  | .implicationGraph v e c =>
    "implication graph with " ++ Nat.repr v ++ " vertices, " ++ Nat.repr e ++ " edges, "
      ++ Nat.repr c ++ " components"
  | .propagated removed facts =>
    "horn propagation removed " ++ Nat.repr removed ++ " literals, " ++ Nat.repr facts
      ++ " variables true"
  | .modelFound decisions forced =>
    "dpll found a model after " ++ Nat.repr decisions ++ " decisions and " ++ Nat.repr forced
      ++ " forced moves"
  | .parsed n m =>
    "parsed formula with " ++ Nat.repr n ++ " variables and " ++ Nat.repr m ++ " clauses"
  | .unrecognizedAlgorithm name =>
    "Unrecognized CNFSAT_DEFAULT_ALGORITHM " ++ Text.quote name ++ "; falling back to auto"
  | .unrecognizedLevel name =>
    "Unrecognized log level " ++ Text.quote name ++ "; falling back to WARNING"
  | .unreadable path reason => "cannot read formula from " ++ path ++ ": " ++ reason

/-- An event as a line of the log. -/
def render (e : Event) : String := e.level.name ++ " " ++ e.source ++ ": " ++ e.message

end Event

/-- The answer of an operation, together with what it reported on the way. -/
structure Report (α : Type) where
  events : List Event
  result : Except Error α

namespace Report

/-- An answer without anything reported. -/
def silent {α : Type} (result : Except Error α) : Report α := ⟨[], result⟩

/-- The same answer with an event reported first. -/
def after {α : Type} (event : Event) (r : Report α) : Report α := ⟨event :: r.events, r.result⟩

end Report

end Clausal
